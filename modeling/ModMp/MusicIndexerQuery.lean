import ModMp.DbConnectionPool
import ModMp.DirSyncStatus
import ModMp.MusicIndexerOutcome
import ModMp.OutputJsonDecoding
import ModMp.Runs

/-!
# The answers of the music indexer

`music_indexer_query` reads the words of a request, takes a connection for the query, and answers
by the type of the request. `db_query_run` leaves the rows NULL, and nothing gives a connection
back. So no answer has a row or a file, and after as many queries as a database has connections all
further ones are refused.

`transcode_audio`, `add_error_list` and `print_error_messages` are defined nowhere in the source
and are parameters, and so are the opening of a file and its size. Columns are pointers. A request
that dereferences NULL, leaves the array of an error table or waits for a lock has no answer.
-/

namespace ModMp.MusicIndexer
open CLib JsonText Runs

/-- The fields of `db_query_t` that an answer needs. -/
structure SelectQuery where
  id : Option CString
  selectColumns : List ℕ
  dbConfig : ℕ

/-- The fields of `music_globals_t` that an answer needs; the queries are NULL or not. -/
structure MusicGlobals where
  dbQueries : Bool
  musicDirs : Option (List Dir)

structure IndexerLibrary extends Library where
  strnatcmp : CString → CString → ℤ
  select : DbQuery strnatcasecmp → SelectQuery
  column : ℕ → ColumnTable
  transcodeAudio : MusicQuery toLibrary → Output → ℤ × Output
  addErrorList : ErrorMessages → ErrorCall → ErrorMessages
  printErrorMessages : ErrorMessages → JsonText.Text Printed
  openFile : CString → Option ℕ

structure IndexerRequest where
  queryNouns : List CString
  output : Output
  allocated : Bool

inductive IndexerFault
  | words (fault : QueryFault)
  | null
  | table
  | blocked

/-- A brigade of text, or a brigade with a file of this path and size. -/
inductive Answer
  | document (output : Output)
  | file (output : Output) (path : CString) (size : ℕ)

def couldntRun : ErrorCall where
  type := .error
  header := CString.ofAscii "Select DB Range Error"
  message := CString.ofAscii "Couln't run music query"

def withStatus (header : String) (status : ℤ) : ErrorCall where
  type := .error
  header := CString.ofAscii header
  message := CString.ofBytes (intDigits status)

def playError : ErrorCall where
  type := .error
  header := CString.ofAscii "Error Playing Song"
  message := CString.ofAscii "Error with getting file_path from results"

def openError (path : CString) : ErrorCall :=
  wordError (CString.ofAscii "Error Playing Song") "Error opening file (" path ")"

def addError (output : Output) (call : ErrorCall) : Output :=
  { output with errorMessages := (errorMessagesAdd output.errorMessages call).2 }

def statusAnswer (output : Output) : Except IndexerFault Answer :=
  match outputStatusJson output with
  | some output => .ok (.document output)
  | none => .error .table

section Answers
variable (lib : IndexerLibrary)

/-- `find_select_column_from_query_by_table_id_and_query_id`. -/
def findSelectColumn (query : SelectQuery) (tableId columnId : CString) : Option ℕ :=
  query.selectColumns.find? (fun column =>
    lib.strnatcmp (lib.column column).id columnId == 0 &&
      lib.strnatcmp (lib.column column).table.id tableId == 0)

/-- The status, and the cell of the row under the first select column that is `column`. -/
def getColumnResultsForRow {n : ℕ} (query : SelectQuery) (results : Option (DbQueryResults n))
    (column rowIndex : ℕ) : Except IndexerFault (ℤ × Option CString) :=
  match results with
  | none => .error .null
  | some results =>
      match results.rowArray with
      | none | some [] => .ok (-2, none)
      | some rows =>
          match query.selectColumns.findIdx? (· == column), rows[rowIndex]? with
          | some i, some row => .ok (0, row.toList[i]?.join)
          | some _, none => .error .null
          | none, _ => .ok (-1, none)

inductive Pulled
  | failed (status : ℤ) (errorMessages : ErrorMessages)
  | file (path : CString) (fileType : Option CString) (size : ℕ)

def pullSong {n : ℕ} (query : SelectQuery) (results : Option (DbQueryResults n))
    (errorMessages : ErrorMessages) : Except IndexerFault Pulled :=
  match findSelectColumn lib query (CString.ofAscii "sources") (CString.ofAscii "path"),
    findSelectColumn lib query (CString.ofAscii "sources") (CString.ofAscii "type") with
  | some filePathCol, some fileTypeCol => do
      let (status, filePath) ← getColumnResultsForRow query results filePathCol 0
      if status ≠ 0 then return .failed (-14) errorMessages
      let (status, fileType) ← getColumnResultsForRow query results fileTypeCol 0
      if status ≠ 0 then return .failed (-14) errorMessages
      match filePath with
      | none => return .failed (-1) (lib.addErrorList errorMessages playError)
      | some filePath =>
          match lib.openFile filePath with
          | none => return .failed (-7) (lib.addErrorList errorMessages (openError filePath))
          | some size => return .file filePath fileType size
  | _, _ => .ok (.failed (-11) errorMessages)

/-- What `apr_psprintf` and `apr_cpystrn` make of `audio/%s`. -/
def audioType (fileType : Option CString) : CString :=
  strndup ((CString.ofAscii "audio/").append (fileType.getD (CString.ofAscii "(null)"))) 254

/-- The query with the fields that are printed. -/
def printedQuery (query : SelectQuery) (dbConfigErrors : ErrorMessages) :
    ModMp.DbQuery query.selectColumns.length where
  id := query.id
  selectColumns := ⟨query.selectColumns.map (fun column => (lib.column column).freindlyName),
    List.length_map _⟩
  dbConfigErrors := dbConfigErrors

/-- The `switch` over the type of the request. -/
def answerType (globals : MusicGlobals) (q : MusicQuery lib.toLibrary) (query : SelectQuery)
    (results : Option (DbQueryResults query.selectColumns.length)) (dbConfigErrors : ErrorMessages)
    (output : Output) : Except IndexerFault Answer :=
  let printed : MusicQueryT query.selectColumns.length :=
    ⟨some (printedQuery lib query dbConfigErrors), results, output, q.errorMessages⟩
  match q.type with
  | .songs | .albums | .artists | .sources =>
      match outputDbQueryJson printed with
      | some printed => .ok (.document printed.output)
      | none => .error .table
  | .play => do
      match ← pullSong lib query results output.errorMessages with
      | .failed status errorMessages =>
          let output := { output with errorMessages := errorMessages }
          statusAnswer (addError output (withStatus "Error playing audio" status))
      | .file path fileType size =>
          let output := { output with
            contentType := audioType fileType
            headers := output.headers ++
              [(CString.ofAscii "Accept-Ranges", CString.ofAscii "bytes")] }
          return .file output path size
  | .transcode =>
      let (status, output) := lib.transcodeAudio q output.setJson
      if status ≠ 0 then
        statusAnswer (addError output (withStatus "Error transcoding audio" status))
      else .ok (.document output)
  | .status =>
      match outputDirsyncStatus lib.printErrorMessages globals.musicDirs printed with
      | some printed => .ok (.document printed.output)
      | none => .error .null

/-- `music_query_t` before the words are read. -/
def IndexerRequest.start (r : IndexerRequest) : MusicQuery lib.toLibrary :=
  ⟨.songs, none, none, r.output.errorMessages, r.queryNouns⟩

/-- A query that the words name: it is run, and the request is answered by its type. -/
def runMusicQuery (globals : MusicGlobals) (configs : ℕ → DbConfig) (r : IndexerRequest)
    (q : MusicQuery lib.toLibrary) (query : SelectQuery) :
    Except IndexerFault (Answer × (ℕ → DbConfig)) :=
  let output := { r.output with errorMessages := q.errorMessages }
  match dbQueryRun r.allocated (configs query.dbConfig) with
  | none => .error .blocked
  | some (errorNum, c) =>
      let configs := Function.update configs query.dbConfig c
      let results : Option (DbQueryResults query.selectColumns.length) :=
        if r.allocated then some ⟨none⟩ else none
      if errorNum ≠ 0 ∧ results.isSome then
        (statusAnswer (addError output couldntRun)).map (fun answer => (answer, configs))
      else
        (answerType lib globals q query results c.errorMessages output).map
          (fun answer => (answer, configs))

/-- The answer, and the databases after it. -/
def musicIndexerQuery (globals : MusicGlobals) (configs : ℕ → DbConfig) (r : IndexerRequest) :
    Except IndexerFault (Answer × (ℕ → DbConfig)) :=
  if globals.dbQueries = false then
    (statusAnswer r.output).map (fun answer => (answer, configs))
  else
    match getMusicQuery (r.start lib) with
    | .error fault => .error (.words fault)
    | .ok (status, q) =>
        match status, q.dbQuery with
        | 0, some dbQuery => runMusicQuery lib globals configs r q (lib.select dbQuery)
        | _, _ =>
            let output := { r.output with errorMessages := q.errorMessages }
            (statusAnswer output).map (fun answer => (answer, configs))

end Answers

theorem dbQueryRun_wellFormed {c : DbConfig} {l : List ℕ} (h : WellFormed c l) :
    ∃ errorNum c', dbQueryRun true c = some (errorNum, c') ∧ WellFormed c' (l.drop 1) ∧
      (l = [] → errorNum ≠ 0) := by
  cases l with
  | nil =>
      refine ⟨-90, { c with errorMessages := (errorMessagesAdd c.errorMessages
        noConnectionError).2 }, ?_, ⟨h.linked, h.distinct, h.unlocked⟩, fun _ => by decide⟩
      unfold dbQueryRun
      rw [if_pos rfl, getConnection_of_empty h.linked]
      rfl
  | cons node l =>
      obtain ⟨c', hrun, -, hwell⟩ := dbQueryRun_cons h
      exact ⟨0, c', hrun, hwell, nofun⟩

theorem map_eq_ok {ε α β : Type} {f : α → β} {x : Except ε α} {b : β} (h : x.map f = .ok b) :
    ∃ a, x = .ok a ∧ f a = b := by
  cases x with
  | error e => cases h
  | ok a => exact ⟨a, rfl, Except.ok.inj h⟩

/-- A document with errors and nothing else. -/
def ErrorsOnly (output : Output) (answer : Answer) : Prop :=
  ∃ output' text records, answer = .document output' ∧
    output'.bucketBrigade = output.bucketBrigade ++ text ∧
    decode text = some (.object [(lit "Errors", errorsValue records)])

theorem errorsOnly_status {output output' : Output} {answer : Answer}
    (hanswer : statusAnswer output' = .ok answer)
    (h : output'.bucketBrigade = output.bucketBrigade) : ErrorsOnly output answer := by
  unfold statusAnswer at hanswer
  split at hanswer
  · next printed hprinted =>
    cases hanswer
    obtain ⟨-, rfl⟩ := outputStatusJson_eq_some hprinted
    exact ⟨_, _, _, rfl, congrArg (· ++ _) h, decode_status _⟩
  · cases hanswer

theorem outputDbQueryJson_of_none {n : ℕ} {dbQuery : ModMp.DbQuery n}
    {results : Option (DbQueryResults n)} (hresults : results = none ∨ results = some ⟨none⟩)
    {output : Output} {errorMessages : ErrorMessages} {query' : MusicQueryT n}
    (h : outputDbQueryJson ⟨some dbQuery, results, output, errorMessages⟩ = some query') :
    ErrorsOnly output (.document query'.output) := by
  have hprinted : MusicQueryT.printed ⟨some dbQuery, results, output, errorMessages⟩ = none := by
    obtain ⟨id, selectColumns, dbConfigErrors⟩ := dbQuery
    rcases hresults with rfl | rfl <;> cases id <;> rfl
  rw [outputDbQueryJson, hprinted] at h
  obtain ⟨t, -, h⟩ := Option.bind_eq_some_iff.mp h
  obtain ⟨text, htext, h⟩ := Option.bind_eq_some_iff.mp h
  unfold errorMessagesPrintJsonBb at htext
  split_ifs at htext
  cases htext
  cases h
  refine ⟨_, _, _, rfl, ?_, decode_status t⟩
  simp only [Output.puts, Output.setJson, statusText, List.append_assoc]

section Step
variable {lib : IndexerLibrary} {globals : MusicGlobals} {q : MusicQuery lib.toLibrary}
  {query : SelectQuery} {results : Option (DbQueryResults query.selectColumns.length)}
  {dbConfigErrors : ErrorMessages} {output : Output} {answer : Answer}

theorem pullSong_of_none (hresults : results = none ∨ results = some ⟨none⟩)
    {errorMessages : ErrorMessages} {pulled : Pulled}
    (h : pullSong lib query results errorMessages = .ok pulled) :
    ∃ status, pulled = .failed status errorMessages := by
  unfold pullSong at h
  split at h
  · rcases hresults with rfl | rfl
    · cases h
    · cases h
      exact ⟨-14, rfl⟩
  · cases h
    exact ⟨-11, rfl⟩

/-- Without rows there are only errors to answer with. -/
theorem answerType_of_none (hresults : results = none ∨ results = some ⟨none⟩)
    (htype : q.type ≠ .transcode)
    (h : answerType lib globals q query results dbConfigErrors output = .ok answer) :
    ErrorsOnly output answer := by
  rw [answerType] at h
  cases hq : q.type with
  | transcode => exact absurd hq htype
  | play =>
      rw [hq] at h
      dsimp only at h
      cases hpulled : pullSong lib query results output.errorMessages with
      | error fault =>
          rw [hpulled] at h
          cases h
      | ok pulled =>
          obtain ⟨status, rfl⟩ := pullSong_of_none hresults hpulled
          rw [hpulled, ok_bind] at h
          exact errorsOnly_status h rfl
  | status =>
      rw [hq] at h
      dsimp only at h
      have hnone : outputDirsyncStatus lib.printErrorMessages globals.musicDirs
          ⟨some (printedQuery lib query dbConfigErrors), results, output, q.errorMessages⟩ =
            none := by
        rcases hresults with rfl | rfl <;> rfl
      rw [hnone] at h
      cases h
  | songs | albums | artists | sources =>
      rw [hq] at h
      dsimp only at h
      split at h
      · next query' hquery =>
        cases h
        exact outputDbQueryJson_of_none hresults hquery
      · cases h

variable {configs configs' : ℕ → DbConfig} {r : IndexerRequest}

/-- The database that a request takes a connection from. -/
def usedConfig (lib : IndexerLibrary) (globals : MusicGlobals) (r : IndexerRequest) : Option ℕ :=
  match getMusicQuery (r.start lib) with
  | .ok (0, q) =>
      if globals.dbQueries && r.allocated then
        q.dbQuery.map (fun dbQuery => (lib.select dbQuery).dbConfig)
      else none
  | _ => none

def refusal (r : IndexerRequest) (q : MusicQuery lib.toLibrary) : Except IndexerFault Answer :=
  statusAnswer (addError { r.output with errorMessages := q.errorMessages } couldntRun)

/-- A request takes one connection at most and answers with errors only, and without a connection
it is refused. -/
structure Answered (lib : IndexerLibrary) (globals : MusicGlobals) (r : IndexerRequest)
    (l : ℕ → List ℕ) (answer : Answer) (configs : ℕ → DbConfig) : Prop where
  pools : ∀ k, WellFormed (configs k)
    (if usedConfig lib globals r = some k then (l k).drop 1 else l k)
  errorsOnly : (∀ q, getMusicQuery (r.start lib) = .ok (0, q) → q.type ≠ .transcode) →
    ErrorsOnly r.output answer
  refused : ∀ k, usedConfig lib globals r = some k → l k = [] →
    ∃ q, getMusicQuery (r.start lib) = .ok (0, q) ∧ refusal r q = .ok answer

theorem Answered.of_unused {l : ℕ → List ℕ} (hwell : ∀ k, WellFormed (configs k) (l k))
    (hunused : usedConfig lib globals r = none) {output : Output}
    (hanswer : statusAnswer output = .ok answer)
    (houtput : output.bucketBrigade = r.output.bucketBrigade) :
    Answered lib globals r l answer configs := by
  refine ⟨fun k => ?_, fun _ => errorsOnly_status hanswer houtput, fun k hk => ?_⟩
  · rw [hunused, if_neg nofun]
    exact hwell k
  · rw [hunused] at hk
    cases hk

/-- A request for a query that the words name. -/
theorem runMusicQuery_answered {l : ℕ → List ℕ} (hwell : ∀ k, WellFormed (configs k) (l k))
    (hq : getMusicQuery (r.start lib) = .ok (0, q))
    (hused : usedConfig lib globals r = if r.allocated then some query.dbConfig else none)
    (h : runMusicQuery lib globals configs r q query = .ok (answer, configs')) :
    Answered lib globals r l answer configs' := by
  unfold runMusicQuery at h
  cases hallocated : r.allocated with
  | false =>
      have hrun : dbQueryRun false (configs query.dbConfig) = some (-1, configs query.dbConfig) :=
        rfl
      rw [hallocated, if_neg Bool.false_ne_true] at hused
      rw [hallocated, hrun] at h
      dsimp only at h
      rw [if_neg (fun hand => Bool.false_ne_true hand.2), Function.update_eq_self] at h
      obtain ⟨answer, hanswer, heq⟩ := map_eq_ok h
      cases heq
      refine ⟨fun k => ?_, fun htype => ?_, fun k hk => ?_⟩
      · rw [hused, if_neg nofun]
        exact hwell k
      · have herrors := answerType_of_none (.inl rfl) (htype q hq) hanswer
        exact herrors
      · rw [hused] at hk
        cases hk
  | true =>
      rw [hallocated, if_pos rfl] at hused
      obtain ⟨errorNum, c, hrun, hpool, hempty⟩ := dbQueryRun_wellFormed (hwell query.dbConfig)
      have hpools : ∀ k, WellFormed (Function.update configs query.dbConfig c k)
          (if usedConfig lib globals r = some k then (l k).drop 1 else l k) := by
        intro k
        rw [hused]
        by_cases hk : k = query.dbConfig
        · subst hk
          rw [Function.update_self, if_pos rfl]
          exact hpool
        · rw [Function.update_of_ne hk, if_neg (fun heq => hk (Option.some.inj heq).symm)]
          exact hwell k
      have hresults : (if true = true then some ⟨none⟩ else none :
          Option (DbQueryResults query.selectColumns.length)) = some ⟨none⟩ := if_pos rfl
      rw [hallocated, hrun, hresults] at h
      dsimp only at h
      by_cases hrefused : errorNum ≠ 0
      · rw [if_pos ⟨hrefused, rfl⟩] at h
        obtain ⟨answer, hanswer, heq⟩ := map_eq_ok h
        cases heq
        exact ⟨hpools, fun _ => errorsOnly_status hanswer rfl, fun _ _ _ => ⟨q, hq, hanswer⟩⟩
      · rw [if_neg (fun hand => hrefused hand.1)] at h
        obtain ⟨answer, hanswer, heq⟩ := map_eq_ok h
        cases heq
        refine ⟨hpools, fun htype => ?_, fun k hk hnil => ?_⟩
        · have herrors := answerType_of_none (.inr rfl) (htype q hq) hanswer
          exact herrors
        · rw [hused] at hk
          cases hk
          exact absurd (hempty hnil) hrefused

theorem musicIndexerQuery_answered {l : ℕ → List ℕ} (hwell : ∀ k, WellFormed (configs k) (l k))
    (h : musicIndexerQuery lib globals configs r = .ok (answer, configs')) :
    Answered lib globals r l answer configs' := by
  unfold musicIndexerQuery at h
  by_cases hglobals : globals.dbQueries = false
  · have hunused : usedConfig lib globals r = none := by
      rw [usedConfig, hglobals, Bool.false_and]
      split <;> rfl
    rw [if_pos hglobals] at h
    obtain ⟨answer, hanswer, heq⟩ := map_eq_ok h
    cases heq
    exact .of_unused hwell hunused hanswer rfl
  · rw [if_neg hglobals] at h
    cases hquery : getMusicQuery (r.start lib) with
    | error fault =>
        rw [hquery] at h
        cases h
    | ok result =>
        obtain ⟨status, q⟩ := result
        rw [hquery] at h
        dsimp only at h
        split at h
        · next dbQuery hdbQuery =>
          have hused : usedConfig lib globals r =
              if r.allocated then some (lib.select dbQuery).dbConfig else none := by
            simp [usedConfig, hquery, hglobals, hdbQuery]
          exact runMusicQuery_answered hwell hquery hused h
        · next hother =>
          obtain ⟨answer, hanswer, heq⟩ := map_eq_ok h
          cases heq
          refine .of_unused hwell ?_ hanswer rfl
          rw [usedConfig, hquery]
          split
          · next other heq =>
            cases heq
            cases hdbQuery : q.dbQuery with
            | none => simp
            | some dbQuery => exact absurd hdbQuery (hother dbQuery rfl)
          · rfl

end Step

/-- The databases, and the answers so far. -/
structure IndexerState where
  configs : ℕ → DbConfig
  answers : List Answer

def next (lib : IndexerLibrary) (globals : MusicGlobals) (s : IndexerState) (r : IndexerRequest) :
    Option IndexerState :=
  match musicIndexerQuery lib globals s.configs r with
  | .ok (answer, configs) => some ⟨configs, s.answers ++ [answer]⟩
  | .error _ => none

def taken (lib : IndexerLibrary) (globals : MusicGlobals) (k : ℕ) (l : List IndexerRequest) : ℕ :=
  l.countP (fun r => usedConfig lib globals r = some k)

/-- What a run has done: each request has taken one connection at most for good, the answers but
those of the transcoder have errors only, and without a connection a request is refused. -/
structure AllAnswered (lib : IndexerLibrary) (globals : MusicGlobals) (l : ℕ → List ℕ)
    (requests : List IndexerRequest) (s : IndexerState) : Prop where
  pools : ∀ k, WellFormed (s.configs k) ((l k).drop (taken lib globals k requests))
  length : s.answers.length = requests.length
  errorsOnly : ∀ (i : ℕ) r answer, requests[i]? = some r → s.answers[i]? = some answer →
    (∀ q, getMusicQuery (r.start lib) = .ok (0, q) → q.type ≠ .transcode) →
      ErrorsOnly r.output answer
  refused : ∀ (i : ℕ) r answer, requests[i]? = some r → s.answers[i]? = some answer →
    ∀ k, usedConfig lib globals r = some k →
      (l k).length ≤ taken lib globals k (requests.take i) →
        ∃ q, getMusicQuery (r.start lib) = .ok (0, q) ∧ refusal r q = .ok answer

section Run
variable {lib : IndexerLibrary} {globals : MusicGlobals} {l : ℕ → List ℕ}
  {requests : List IndexerRequest} {s s' : IndexerState}

theorem getElem?_snoc_cases {α β : Type} {m : List α} {m' : List β} {a b : α} {a' b' : β} {i : ℕ}
    (hlength : m'.length = m.length) (h : (m ++ [a])[i]? = some b)
    (h' : (m' ++ [a'])[i]? = some b') :
    m[i]? = some b ∧ m'[i]? = some b' ∨ i = m.length ∧ b = a ∧ b' = a' := by
  rcases Nat.lt_or_ge i m.length with hlt | hge
  · rw [List.getElem?_append_left hlt] at h
    rw [List.getElem?_append_left (hlength ▸ hlt)] at h'
    exact .inl ⟨h, h'⟩
  · rw [List.getElem?_append_right hge, List.getElem?_singleton] at h
    rw [List.getElem?_append_right (hlength ▸ hge), hlength, List.getElem?_singleton] at h'
    split_ifs at h h' with hzero
    exact .inr ⟨by omega, (Option.some.inj h).symm, (Option.some.inj h').symm⟩

theorem taken_append (k : ℕ) (r : IndexerRequest) : taken lib globals k (requests ++ [r]) =
    taken lib globals k requests + if usedConfig lib globals r = some k then 1 else 0 := by
  rw [taken, taken, List.countP_append, List.countP_singleton]
  simp only [decide_eq_true_eq]

theorem AllAnswered.next (h : AllAnswered lib globals l requests s) {r : IndexerRequest}
    (hs : next lib globals s r = some s') :
    AllAnswered lib globals l (requests ++ [r]) s' := by
  unfold MusicIndexer.next at hs
  cases hquery : musicIndexerQuery lib globals s.configs r with
  | error fault =>
      rw [hquery] at hs
      cases hs
  | ok result =>
      obtain ⟨answer, configs⟩ := result
      rw [hquery] at hs
      cases hs
      have hanswered := musicIndexerQuery_answered h.pools hquery
      refine ⟨fun k => ?_, ?_, fun i other answer' hr hanswer => ?_,
        fun i other answer' hr hanswer k hk hle => ?_⟩
      · have hpool := hanswered.pools k
        rw [taken_append]
        split_ifs at hpool ⊢
        · rw [← List.drop_drop]
          exact hpool
        · exact hpool
      · rw [List.length_append, List.length_append, h.length]
        rfl
      · rcases getElem?_snoc_cases h.length hr hanswer with ⟨hr, hanswer⟩ | ⟨-, rfl, rfl⟩
        · exact h.errorsOnly i other answer' hr hanswer
        · exact hanswered.errorsOnly
      · rcases getElem?_snoc_cases h.length hr hanswer with ⟨hr, hanswer⟩ | ⟨rfl, rfl, rfl⟩
        · obtain ⟨hlt, -⟩ := List.getElem?_eq_some_iff.mp hr
          rw [List.take_append_of_le_length hlt.le] at hle
          exact h.refused i other answer' hr hanswer k hk hle
        · rw [List.take_left] at hle
          exact hanswered.refused k hk (List.drop_eq_nil_of_le hle)

end Run

/-- Over any run of requests no answer has a row or a file, and as many queries are run as a
database has connections. -/
theorem music_indexer_answers {lib : IndexerLibrary} {globals : MusicGlobals}
    {configs : ℕ → DbConfig} {l : ℕ → List ℕ} (hwell : ∀ k, WellFormed (configs k) (l k))
    {requests : List IndexerRequest} {s : IndexerState}
    (hrun : Run (Fires (next lib globals)) ⟨configs, []⟩ requests s) :
    AllAnswered lib globals l requests s := by
  refine hrun.history (I := AllAnswered lib globals l) ⟨hwell, rfl, ?_, ?_⟩
    (fun _ _ _ _ h hs => h.next hs)
  · exact fun _ _ _ hget => nomatch hget
  · exact fun _ _ _ hget => nomatch hget

def indexerOfSongs : IndexerLibrary where
  toLibrary := songsLibrary
  strnatcmp := compareWords
  select _ := ⟨some (CString.ofAscii "songs"), [0], 0⟩
  column _ := songColumn "name" "song_title" .varchar
  transcodeAudio _ output := (0, output)
  addErrorList t call := (errorMessagesAdd t call).2
  printErrorMessages := errorMessagesPrintJson
  openFile _ := none

def songsWithLimit : IndexerRequest where
  queryNouns := ["db", "songs", "limit", "5"].map CString.ofAscii
  output := ⟨[], CString.ofAscii "", [], ⟨0, fun _ => whereError.record⟩⟩
  allocated := true

/-- Two requests for songs, with one connection: the second one is refused. -/
theorem music_indexer_answers_two : ∃ (s : IndexerState)
    (q : MusicQuery indexerOfSongs.toLibrary), AllAnswered indexerOfSongs ⟨true, none⟩
      (fun _ => [0]) [songsWithLimit, songsWithLimit] s ∧
      ∃ answer, s.answers[1]? = some answer ∧ refusal songsWithLimit q = .ok answer := by
  have hexecute : (execute (next indexerOfSongs ⟨true, none⟩) ⟨fun _ => oneConnection, []⟩
      [songsWithLimit, songsWithLimit]).isSome = true := by
    decide +kernel
  obtain ⟨s, hs⟩ := Option.isSome_iff_exists.mp hexecute
  have hanswered := music_indexer_answers (fun _ => wellFormed_oneConnection)
    (run_of_execute hs)
  have hlt : 1 < s.answers.length := by
    rw [hanswered.length]
    decide
  obtain ⟨q, -, hrefused⟩ := hanswered.refused 1 songsWithLimit s.answers[1] rfl
    (List.getElem?_eq_getElem hlt) 0 rfl (by decide +kernel)
  exact ⟨s, q, hanswered, s.answers[1], List.getElem?_eq_getElem hlt, hrefused⟩

end ModMp.MusicIndexer
