import ModMp.MusicQueryUrl

/-!
# The music query object of the client

A query object sends one request after the other. Every request gets the same handler, and the
handler processes the newest request, whichever request the event belongs to. The rows of a response
are of any type. Requests are kept from the oldest to the newest with the responses that they will
get, and the calls of `onComplete` since the last reset are counted.
-/

namespace ModMp

/-- What is kept under a name in a response or in the results. -/
inductive Field (ρ : Type)
  | array (rows : List ρ)
  | single (row : ρ)

/-- What `JSON.parse` makes of a response text. -/
inductive Json (ρ : Type)
  | invalid
  | other
  | object (fields : Text → Option (Field ρ))

structure Response (ρ : Type) where
  status : ℕ
  json : Json ρ

structure MusicQuery (ρ : Type) where
  hostname : Word
  parameters : QueryParameters
  count : ℕ
  running : Bool
  results : Text → Option (Field ρ)
  url : Text

structure Request (ρ : Type) where
  url : Text
  response : Response ρ
  readyState : ℕ

structure Session (ρ : Type) where
  query : MusicQuery ρ
  requests : List (Request ρ)
  completions : ℕ

variable {ρ : Type}

/-- The rows under a name, or a new array. -/
def arrayOf (results : Text → Option (Field ρ)) (name : Text) : List ρ :=
  match results name with
  | some (.array rows) => rows
  | _ => []

/-- One round of the loop over the objects: the results and `json_length` after it. -/
def processObject (fields : Text → Option (Field ρ))
    (r : (Text → Option (Field ρ)) × ℕ) (name : Text) : (Text → Option (Field ρ)) × ℕ :=
  match fields name with
  | some (.array rows) =>
      (Function.update r.1 name (some (.array (arrayOf r.1 name ++ rows))), r.2 + rows.length)
  | some (.single row) => (Function.update r.1 name (some (.single row)), r.2 + 1)
  | none => (r.1, 0)

namespace Session

def reset (s : Session ρ) : Session ρ where
  query := { s.query with count := 0, running := false, results := fun _ => none }
  requests := s.requests
  completions := 0

variable (server : MusicQuery ρ → Response ρ)

/-- A new request is opened and sent; the server answers what the query asks for now. -/
def load (s : Session ρ) : Session ρ :=
  let query := { s.query with
    running := true
    url := setUrl s.query.hostname s.query.count s.query.parameters }
  { s with
    query := query
    requests := s.requests ++ [⟨query.url, server query, 1⟩] }

/-- The end of `process`: the query stops, or it goes on with the next page. -/
def proceed (s : Session ρ) (results : Text → Option (Field ρ)) (jsonLength : ℕ) : Session ρ :=
  if jsonLength = 0 ∨ s.query.parameters.numResults > jsonLength ∨
      s.query.parameters.numResults = 0 then
    { s with
      query := { s.query with results := results, running := false }
      completions := s.completions + 1 }
  else
    load server { s with
      query := { s.query with results := results, count := s.query.count + 1 } }

def process (s : Session ρ) : Session ρ :=
  match s.requests.getLast? with
  | none => s
  | some xmlhttp =>
      if xmlhttp.readyState = 4 ∧ xmlhttp.response.status = 200 then
        match xmlhttp.response.json with
        | .invalid => s.load server
        | .other => s
        | .object fields =>
            let (results, jsonLength) :=
              s.query.parameters.objects.foldl (processObject fields) (s.query.results, 0)
            s.proceed server results jsonLength
      else s

/-- A `readystatechange` event of the request number `i`, which is then in state `readyState`. -/
def event (s : Session ρ) (i readyState : ℕ) : Option (Session ρ) := do
  let request ← s.requests[i]?
  if request.readyState < 4 ∧ request.readyState ≤ readyState ∧ readyState ≤ 4 then
    return process server { s with
      requests := s.requests.set i { request with readyState := readyState } }
  else none

/-- The calls that start a query with new parameters. -/
def resetLoad (s : Session ρ) (parameters : QueryParameters) : Session ρ :=
  load server { s.reset with query := { s.reset.query with parameters := parameters } }

/-- A query object that has sent nothing. -/
def create (hostname : Word) (parameters : QueryParameters) : Session ρ where
  query := ⟨hostname, parameters, 0, false, fun _ => none, []⟩
  requests := []
  completions := 0

end Session

def pageRows (rows : List ρ) (limit offset : ℕ) : List ρ :=
  if limit = 0 then rows else (rows.drop offset).take limit

def arrayResponse (name : Text) (rows : List ρ) : Response ρ where
  status := 200
  json := .object (fun n => if n = name then some (.array rows) else none)

end ModMp
