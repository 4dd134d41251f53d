import ModMp.MusicQueryPages
import ModMp.MusicQueryWords
import ModMp.Runs

/-!
# Late responses to a music query

A query can be reset and loaded with new parameters while requests are under way. Their events are
still delivered, and each makes the query process its newest request once more. This does no harm
until the newest request is complete; from then on it adds that request's rows again.
-/

namespace ModMp
open Runs

variable {ρ : Type}

inductive QueryEvent
  | load (parameters : QueryParameters)
  | readyStateChange (i readyState : ℕ)

def QueryEvent.loaded : QueryEvent → Option QueryParameters
  | .load p => some p
  | .readyStateChange _ _ => none

/-- The parameters of the last load. -/
def lastLoaded (l : List QueryEvent) : Option QueryParameters :=
  (l.filterMap QueryEvent.loaded).getLast?

/-- A server that answers each request with the rows of its own parameters and offset. -/
def rowsServer (name : Text) (rowsOf : QueryParameters → List ρ) (q : MusicQuery ρ) : Response ρ :=
  arrayResponse name (pageRows (rowsOf q.parameters) q.parameters.numResults
    (q.count * q.parameters.numResults))

/-- A reset and a load for one object, or an event of any request. -/
def Session.next (name : Text) (rowsOf : QueryParameters → List ρ) (s : Session ρ) :
    QueryEvent → Option (Session ρ)
  | .load p => if p.objects = [name] then some (s.resetLoad (rowsServer name rowsOf) p) else none
  | .readyStateChange i readyState => s.event (rowsServer name rowsOf) i readyState

def responseRows (name : Text) (request : Request ρ) : List ρ :=
  match request.response.json with
  | .object fields => arrayOf fields name
  | _ => []

/-- An event of another request comes before the newest one is complete, or that one has no rows. -/
def InTime (name : Text) (s : Session ρ) : QueryEvent → Prop
  | .load _ => True
  | .readyStateChange i _ => i + 1 = s.requests.length ∨
      ∀ xmlhttp ∈ s.requests.getLast?, xmlhttp.readyState = 4 → responseRows name xmlhttp = []

instance (name : Text) (s : Session ρ) (e : QueryEvent) : Decidable (InTime name s e) :=
  match e with
  | .load _ => inferInstanceAs (Decidable True)
  | .readyStateChange _ _ => inferInstanceAs (Decidable (_ ∨ ∀ xmlhttp ∈ s.requests.getLast?, _))

theorem rowsServer_serves (name : Text) (rowsOf : QueryParameters → List ρ) (p : QueryParameters) :
    Serves (rowsServer name rowsOf) name (rowsOf p) p := by
  intro q hparams _
  rw [rowsServer, hparams]

theorem lastLoaded_load (l : List QueryEvent) (p : QueryParameters) :
    lastLoaded (l ++ [.load p]) = some p := by
  rw [lastLoaded, List.filterMap_append]
  exact List.getLast?_concat

theorem lastLoaded_event (l : List QueryEvent) (i readyState : ℕ) :
    lastLoaded (l ++ [.readyStateChange i readyState]) = lastLoaded l := by
  rw [lastLoaded, List.filterMap_append]
  exact congrArg List.getLast? (List.append_nil _)

section Events
variable {name : Text} {rows : List ρ} {s s' : Session ρ} {xmlhttp : Request ρ}
  {server : MusicQuery ρ → Response ρ} {i readyState : ℕ}

theorem responseRows_eq (h : Loaded name rows s xmlhttp) : responseRows name xmlhttp =
    pageRows rows s.query.parameters.numResults
      (s.query.count * s.query.parameters.numResults) := by
  rw [responseRows, h.response]
  dsimp only [arrayResponse]
  rw [arrayOf, if_pos rfl]

/-- Processing a complete query once more adds its last page again. -/
theorem process_complete (h : Loaded name rows s xmlhttp) (hfour : xmlhttp.readyState = 4)
    {requests : List (Request ρ)} (hnewest : requests.getLast? = some xmlhttp) :
    Session.process server { s with requests := requests } = {
      query := { s.query with
        results := Function.update s.query.results name
          (some (.array (rows ++ responseRows name xmlhttp)))
        running := false }
      requests := requests
      completions := s.completions + 1 } := by
  obtain ⟨hresults, hend⟩ := h.complete hfour
  have hrows : arrayOf s.query.results name = rows := by rw [arrayOf, hresults]
  rw [Session.process_array (s := { s with requests := requests }) hnewest hfour h.response
    h.objects, Session.proceed, hrows, ← responseRows_eq h]
  rcases pageRows_cases rows s.query.parameters.numResults s.query.count h.offset with
    ⟨-, hstop, -⟩ | ⟨hmore, hgo, -⟩
  · rw [← responseRows_eq h] at hstop
    exact if_pos hstop
  · rcases hend with hzero | hlast
    · exact absurd (.inr (.inr hzero)) hgo
    · exact absurd hlast (not_lt.mpr hmore)

theorem event_newest (hserves : Serves server name rows s.query.parameters)
    (h : Loaded name rows s xmlhttp) (hi : i + 1 = s.requests.length)
    (hs : s.event server i readyState = some s') :
    s'.query.parameters = s.query.parameters ∧ ∃ request, Loaded name rows s' request := by
  obtain ⟨request, hrequest, hopen, hle, rfl⟩ := Session.event_eq_some hs
  have hlast : s.requests.getLast? = some request := by
    rw [List.getLast?_eq_getElem?, ← hi]
    exact hrequest
  have heq : request = xmlhttp := Option.some.inj (hlast.symm.trans h.newest)
  subst heq
  have hnewest : (s.requests.set i { request with readyState := readyState }).getLast? =
      some { request with readyState := readyState } := by
    rw [List.getLast?_eq_getElem?, List.length_set, ← hi, Nat.add_sub_cancel,
      List.getElem?_set_self (by omega)]
  by_cases hfour : readyState = 4
  · subst hfour
    obtain ⟨hparams, -, hnext⟩ := process_response hserves h hopen.ne
      { s with requests := s.requests.set i { request with readyState := 4 } } rfl rfl hnewest
    refine ⟨hparams, ?_⟩
    rcases hnext with ⟨-, -, -, hloaded⟩ | ⟨request', -, -, -, hloaded⟩
    · exact ⟨_, hloaded⟩
    · exact ⟨_, hloaded⟩
  · rw [Session.process_of_ne hnewest hfour]
    exact ⟨rfl, _, h.waiting hopen.ne hle hfour hnewest⟩

theorem event_earlier (h : s.requests.getLast? = some xmlhttp) (hi : i + 1 ≠ s.requests.length)
    (hs : s.event server i readyState = some s') :
    ∃ requests, requests.getLast? = some xmlhttp ∧
      s' = { s with requests := requests }.process server := by
  obtain ⟨request, hrequest, -, -, rfl⟩ := Session.event_eq_some hs
  have hlt := (List.getElem?_eq_some_iff.mp hrequest).1
  refine ⟨s.requests.set i { request with readyState := readyState }, ?_, rfl⟩
  rw [List.getLast?_eq_getElem?, List.length_set, List.getElem?_set_ne (by omega),
    ← List.getLast?_eq_getElem?, h]

/-- A late event of an earlier request adds the last page a second time and calls `onComplete`. -/
theorem late_event_repeats (h : Loaded name rows s xmlhttp) (hi : i + 1 ≠ s.requests.length)
    (hfour : xmlhttp.readyState = 4) (hs : s.event server i readyState = some s') :
    s'.completions = s.completions + 1 ∧
      s'.query.results name = some (.array (rows ++ responseRows name xmlhttp)) := by
  obtain ⟨requests, hnewest, rfl⟩ := event_earlier h.newest hi hs
  rw [process_complete h hfour hnewest]
  exact ⟨rfl, Function.update_self _ _ _⟩

/-- An event of an earlier request does no harm in time. -/
theorem event_earlier_inTime (h : Loaded name rows s xmlhttp) (hi : i + 1 ≠ s.requests.length)
    (htime : InTime name s (.readyStateChange i readyState))
    (hs : s.event server i readyState = some s') :
    s'.query.parameters = s.query.parameters ∧ Loaded name rows s' xmlhttp := by
  obtain ⟨requests, hnewest, rfl⟩ := event_earlier h.newest hi hs
  by_cases hfour : xmlhttp.readyState = 4
  · have hempty := htime.resolve_left hi xmlhttp h.newest hfour
    rw [process_complete h hfour hnewest, hempty, List.append_nil]
    refine ⟨rfl, hnewest, h.state, h.url, h.objects, h.response, h.offset,
      fun hne => absurd hfour hne, fun _ => ⟨Function.update_self _ _ _, (h.complete hfour).2⟩⟩
  · rw [Session.process_of_ne hnewest hfour]
    exact ⟨rfl, h.of_newest hnewest⟩

end Events

/-- Nothing was loaded yet, or the query is on the way to the rows of the last load. -/
def OnTheWay (name : Text) (rowsOf : QueryParameters → List ρ) (l : List QueryEvent)
    (s : Session ρ) : Prop :=
  s.requests = [] ∧ s.completions = 0 ∨
    ∃ p xmlhttp, lastLoaded l = some p ∧ s.query.parameters = p ∧ Loaded name (rowsOf p) s xmlhttp

theorem onTheWay_step {name : Text} {rowsOf : QueryParameters → List ρ} {l : List QueryEvent}
    {s s' : Session ρ} {e : QueryEvent} (h : OnTheWay name rowsOf l s) (htime : InTime name s e)
    (hs : Fires (Session.next name rowsOf) s e s') : OnTheWay name rowsOf (l ++ [e]) s' := by
  cases e with
  | load p =>
      rw [Fires, Session.next] at hs
      split_ifs at hs with hobjects
      cases hs
      obtain ⟨request, -, -, hloaded⟩ := loaded_load
        (s := { s.reset with query := { s.reset.query with parameters := p } })
        (rowsServer_serves name rowsOf p) hobjects (by simp [Session.reset]) rfl
        (by simp [Session.reset, arrayOf])
      exact .inr ⟨p, request, lastLoaded_load l p, rfl, hloaded⟩
  | readyStateChange i readyState =>
      have hevent : s.event (rowsServer name rowsOf) i readyState = some s' := hs
      rcases h with ⟨hnone, -⟩ | ⟨p, xmlhttp, hlast, hparams, hloaded⟩
      · obtain ⟨request, hrequest, -⟩ := Session.event_eq_some hevent
        rw [hnone] at hrequest
        cases hrequest
      · right
        by_cases hi : i + 1 = s.requests.length
        · have hserves : Serves (rowsServer name rowsOf) name (rowsOf p) s.query.parameters := by
            rw [hparams]
            exact rowsServer_serves name rowsOf p
          obtain ⟨hsame, request, hloaded'⟩ := event_newest hserves hloaded hi hevent
          exact ⟨p, request, by rw [lastLoaded_event, hlast], hsame.trans hparams, hloaded'⟩
        · obtain ⟨hsame, hloaded'⟩ := event_earlier_inTime hloaded hi htime hevent
          exact ⟨p, xmlhttp, by rw [lastLoaded_event, hlast], hsame.trans hparams, hloaded'⟩

/-- In a run in which no event of an earlier request comes after the newest one has brought rows
and is complete, the results are the rows of the last load whenever `onComplete` has been called
since. -/
theorem results_of_inTime {name : Text} {rowsOf : QueryParameters → List ρ} {hostname : Word}
    {parameters : QueryParameters} {l : List QueryEvent} {s : Session ρ}
    (h : Run (fun s e s' => InTime name s e ∧ Fires (Session.next name rowsOf) s e s')
      (.create hostname parameters) l s) (hcomplete : 0 < s.completions) :
    ∃ p, lastLoaded l = some p ∧ s.query.results name = some (.array (rowsOf p)) := by
  have hway : OnTheWay name rowsOf l s := by
    apply h.history (I := OnTheWay name rowsOf)
    · exact .inl ⟨rfl, rfl⟩
    · intro l s e s' hway hs
      exact onTheWay_step hway hs.1 hs.2
  rcases hway with ⟨-, hzero⟩ | ⟨p, xmlhttp, hlast, hparams, hloaded⟩
  · omega
  · have hfour : xmlhttp.readyState = 4 := by
      by_contra hne
      have hzero := (hloaded.fetching hne).1
      omega
    exact ⟨p, hlast, (hloaded.complete hfour).1⟩

def searchRows (p : QueryParameters) : List ℕ :=
  if p.songTitle = some (text "*ab*") then [2] else [1]

def searchSession : Session ℕ := .create exampleHost (searchParameters [])

def twoLoads : List QueryEvent :=
  [.load (searchParameters (text "*a*")), .load (searchParameters (text "*ab*"))]

/-- The first response comes before the second. -/
theorem results_of_inTime_two_searches : ∃ s, 0 < s.completions ∧
    s.query.results (text "songs") = some (.array (searchRows (searchParameters (text "*ab*")))) ∧
    Run (Fires (Session.next (text "songs") searchRows)) searchSession
      (twoLoads ++ [.readyStateChange 0 4, .readyStateChange 1 4]) s := by
  have hexecute : (execute (fun s e => if InTime (text "songs") s e then
      Session.next (text "songs") searchRows s e else none) searchSession
      (twoLoads ++ [.readyStateChange 0 4, .readyStateChange 1 4])).map Session.completions =
        some 1 := by
    decide +kernel
  obtain ⟨s, hs, hone⟩ := Option.map_eq_some_iff.mp hexecute
  have hrun := run_of_execute_guarded hs
  have hpos : 0 < s.completions := by omega
  obtain ⟨p, hlast, hresults⟩ := results_of_inTime hrun hpos
  cases hlast
  exact ⟨s, hpos, hresults, hrun.mono (fun _ _ _ h => h.2)⟩

/-- The first response comes after the second, whose row is then there twice. -/
theorem search_results_twice : ∃ s, 0 < s.completions ∧
    arrayOf s.query.results (text "songs") = [2, 2] ∧
    searchRows (searchParameters (text "*ab*")) = [2] ∧
    Run (Fires (Session.next (text "songs") searchRows)) searchSession
      (twoLoads ++ [.readyStateChange 1 4, .readyStateChange 0 4]) s := by
  have hexecute : (execute (Session.next (text "songs") searchRows) searchSession
      (twoLoads ++ [.readyStateChange 1 4, .readyStateChange 0 4])).map
        (fun s => (s.completions, arrayOf s.query.results (text "songs"))) = some (2, [2, 2]) := by
    decide +kernel
  obtain ⟨s, hs, htwice⟩ := Option.map_eq_some_iff.mp hexecute
  rw [Prod.mk.injEq] at htwice
  exact ⟨s, by omega, htwice.2, by decide +kernel, run_of_execute hs⟩

end ModMp
