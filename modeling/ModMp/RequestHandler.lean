import ModMp.ErrorLog
import ModMp.Input
import ModMp.OutputJsonDecoding
import ModMp.Runs
import ModMp.ServerConfig

/-!
# The handler of a request

`mp_handler` declines a request to a server that is not enabled. For any other it makes an output
with a copy of the server's errors, looks for the indexer that the URI names, and answers. The only
indexer of the servers is the one for files, whose query leaves the output as it is. What the
responses hold is followed over everything that can happen to the servers.

The source does not fit its own header here: `mod_mp.c` passes the filters of the request to
`output_init_bb` as a third argument, and sends the brigade to `output->filters`, while `output.h`
declares two parameters and has that field commented out. The model takes the call without the
filters, and sends the brigade to the filters of the request.
-/

namespace ModMp
open CLib JsonText Runs

structure HttpResponse where
  headers : List (CString × CString)
  contentType : CString
  contentLength : ℕ
  body : JsonText.Text Printed

inductive HttpReply
  | declined
  | ok (response : HttpResponse)

def noIndexerError : ErrorCall where
  type := .error
  header := CString.ofAscii "Error With Query"
  message := CString.ofAscii "No indexer found!"

def outputInit : Output where
  headers := []
  contentType := CString.ofAscii ""
  bucketBrigade := []
  errorMessages := emptyTable

/-- The bytes of a text, with what is printed for a `%s`. -/
def textBytes (printed : Printed → Bytes) (text : JsonText.Text Printed) : Bytes :=
  text.flatMap (fun sym => match sym with
    | .byte b => [b]
    | .given t => printed t)

/-- `output_finalize_bb` and the response that is sent. The length of a brigade in memory is always
known. -/
def outputFinalize (printed : Printed → Bytes) (output : Output) : HttpResponse where
  headers := output.headers
  contentType := output.contentType
  contentLength := (textBytes printed output.bucketBrigade).length
  body := output.bucketBrigade

/-- `index_manager_find_indexer` for a name that may be NULL, which the comparison with a friendly
name dereferences. -/
def findIndexer (strnatcmp : CString → CString → ℤ) (c : SrvConf) (indexerName : Option CString) :
    Option (ℤ × Option ℕ) :=
  match indexerName with
  | some indexerName => some (indexManagerFindIndexer strnatcmp c indexerName)
  | none =>
      if ∃ indexer ∈ c.indexManager.nodes, (c.indexers indexer).friendlyName ≠ none then none
      else some (-1, none)

/-- `mp_handler`, which has no result when it dereferences NULL or leaves the array of a table. -/
def mpHandler (strnatcmp : CString → CString → ℤ) (printed : Printed → Bytes) (m : SharedMemory)
    (cfg : MpSrvCfg) (input : Input) : Option HttpReply :=
  if cfg.enable ≠ 1 then some .declined
  else
    match cfg.errorMessages with
    | none => some .declined
    | some errorMessages => do
        let errors := (m.segments errorMessages).errorMessages
        let output := { outputInit with
          errorMessages := ← errorMessagesDuplicate outputInit.errorMessages errors }
        let indexManager ← cfg.indexManager
        let (status, _) ← findIndexer strnatcmp ⟨cfg.allocated, cfg.indexers, indexManager, errors⟩
          (input.indexerString.map CString.ofBytes)
        let output ← if status ≠ 0 then
            outputStatusJson { output with
              errorMessages := (errorMessagesAdd output.errorMessages noIndexerError).2 }
          else some output
        return .ok (outputFinalize printed output)

/-- An enabled server with a table has its indexers, which have no names. -/
structure Served (cfg : MpSrvCfg) : Prop where
  enable : cfg.enable = 0 ∨ cfg.enable = 1
  indexers : cfg.enable ≠ 0 → cfg.errorMessages ≠ none → ∃ indexManager,
    cfg.indexManager = some indexManager ∧
      ∀ errors, Nameless ⟨cfg.allocated, cfg.indexers, indexManager, errors⟩

/-- No table has more errors than it has room for. -/
def SharedMemory.Bounded (m : SharedMemory) : Prop :=
  ∀ segment, (m.segments segment).errorMessages.numErrors ≤ maxErrors

namespace SharedMemory

variable {m : SharedMemory}

theorem Bounded.write (h : m.Bounded) (segment : ℕ) {f : ErrorSegment → ErrorSegment}
    (hf : (f (m.segments segment)).errorMessages.numErrors ≤ maxErrors) :
    (m.write segment f).Bounded := by
  intro other
  by_cases heq : other = segment
  · rw [heq, segments_write_self]
    exact hf
  · rw [segments_write_of_ne _ heq]
    exact h other

theorem Bounded.addError (h : m.Bounded) (segment : ℕ) (call : ErrorCall) :
    (m.addError segment call).Bounded :=
  h.write segment (records_errorMessagesAdd (h segment) call).2

theorem Bounded.destroy (h : m.Bounded) (path : CString) : (m.destroy path).Bounded := by
  rw [SharedMemory.destroy]
  split_ifs <;> exact h

theorem Bounded.create (h : m.Bounded) (path : CString) : (m.create path).Bounded := by
  intro segment
  by_cases heq : segment = m.fresh
  · rw [heq, segments_create_self]
    exact Nat.zero_le _
  · rw [segments_create_of_ne _ heq]
    exact h segment

theorem Bounded.setupSharedMemory (h : m.Bounded) (r : ShmResults) (path : CString) :
    (setupSharedMemory r path m).2.2.Bounded := by
  rw [ModMp.setupSharedMemory]
  split_ifs
  · exact h.destroy path
  all_goals exact (h.destroy path).create path

theorem Bounded.errorMessagesInitShared (h : m.Bounded) (r : ShmResults) (path : CString) :
    (errorMessagesInitShared r path m).2.2.Bounded := by
  have hsetup := h.setupSharedMemory r path
  rw [ModMp.errorMessagesInitShared]
  generalize ModMp.setupSharedMemory r path m = result at hsetup ⊢
  obtain ⟨status, shm, m₂⟩ := result
  dsimp only at hsetup ⊢
  split_ifs
  · exact hsetup
  · cases shm with
    | none => exact hsetup
    | some segment =>
        dsimp only
        apply hsetup.write
        exact Nat.zero_le _

end SharedMemory

theorem numErrors_register {t : ErrorMessages} (h : t.numErrors ≤ maxErrors) (r : Registration) :
    (register (indexManagerInit t) r).errorMessages.numErrors ≤ maxErrors := by
  change (indexerReadXmlConfig r t).2.numErrors ≤ maxErrors
  rw [indexerReadXmlConfig]
  split_ifs
  · exact h
  · exact (records_errorMessagesAdd h _).2

theorem Served.of_disabled {cfg : MpSrvCfg} (h : cfg.enable = 0) : Served cfg :=
  ⟨.inl h, fun hne => absurd h hne⟩

theorem modMpInit_served {cfg : MpSrvCfg} (h : Served cfg) {m : SharedMemory} (hm : m.Bounded)
    (r : InitResults) (pid : ℤ) :
    Served (modMpInit r pid cfg m).1 ∧ (modMpInit r pid cfg m).2.Bounded := by
  have hshared := hm.errorMessagesInitShared r.shm cfg.errorsShmFile
  rw [modMpInit]
  dsimp only
  generalize errorMessagesInitShared r.shm cfg.errorsShmFile m = result at hshared ⊢
  obtain ⟨status, errorMessages, m₂⟩ := result
  dsimp only at hshared ⊢
  cases errorMessages with
  | none => exact ⟨.of_disabled rfl, hshared⟩
  | some errorMessages =>
      dsimp only
      split_ifs
      · exact ⟨.of_disabled rfl, hshared⟩
      · have hnameless := (Nameless.init (m₂.segments errorMessages).errorMessages).register
          (fileIndexer cfg.indexerXmlConfigDir r.opened)
        refine ⟨⟨h.enable, fun _ _ => ⟨_, rfl, fun errors =>
          ⟨hnameless.allocated, hnameless.friendlyName⟩⟩⟩, ?_⟩
        dsimp only
        apply hshared.write
        exact numErrors_register (hshared errorMessages) _

theorem initServers_served {servers : List MpSrvCfg} (h : ∀ cfg ∈ servers, Served cfg)
    {m : SharedMemory} (hm : m.Bounded) (pid : ℤ) (results : ℕ → InitResults) (i : ℕ) :
    (∀ cfg ∈ (initServers pid results i servers m).1, Served cfg) ∧
      (initServers pid results i servers m).2.Bounded := by
  induction servers generalizing m i with
  | nil => exact ⟨h, hm⟩
  | cons cfg servers ih =>
      have hfirst : ∃ cfg₂ m₂, Served cfg₂ ∧ m₂.Bounded ∧
          initServers pid results i (cfg :: servers) m =
            (cfg₂ :: (initServers pid results (i + 1) servers m₂).1,
              (initServers pid results (i + 1) servers m₂).2) := by
        rw [initServers]
        split_ifs
        · obtain ⟨hserved, hbounded⟩ :=
            modMpInit_served (h cfg List.mem_cons_self) hm (results i) pid
          exact ⟨_, _, hserved, hbounded, rfl⟩
        · exact ⟨_, _, h cfg List.mem_cons_self, hm, rfl⟩
      obtain ⟨cfg₂, m₂, hserved, hbounded, heq⟩ := hfirst
      obtain ⟨hrest, hlast⟩ :=
        ih (fun other hother => h other (List.mem_cons_of_mem _ hother)) hbounded (i + 1)
      rw [heq]
      refine ⟨fun other hother => ?_, hlast⟩
      rcases List.mem_cons.mp hother with rfl | hother
      · exact hserved
      · exact hrest other hother

theorem forkModMp_served {cfg cfg₂ : MpSrvCfg} (h : Served cfg) {attached : Bool}
    {m : SharedMemory} (hfork : forkModMp attached m cfg = some cfg₂) : Served cfg₂ := by
  obtain ⟨errorMessages, htable, hfork⟩ := Option.bind_eq_some_iff.mp hfork
  obtain ⟨result, -, hfork⟩ := Option.bind_eq_some_iff.mp hfork
  cases hfork
  exact ⟨h.enable, fun hne _ => h.indexers hne (htable ▸ Option.some_ne_none _)⟩

theorem childServers_served {servers servers₂ : List MpSrvCfg} (h : ∀ cfg ∈ servers, Served cfg)
    {pid : ℤ} {attached : ℕ → Bool} {m : SharedMemory} {i : ℕ}
    (hchild : childServers pid attached m i servers = some servers₂) :
    ∀ cfg ∈ servers₂, Served cfg := by
  induction servers generalizing servers₂ i with
  | nil =>
      cases hchild
      exact h
  | cons cfg servers ih =>
      rw [childServers] at hchild
      obtain ⟨cfg₂, hfirst, hchild⟩ := Option.bind_eq_some_iff.mp hchild
      obtain ⟨rest, hrest, rfl⟩ := Option.map_eq_some_iff.mp hchild
      intro other hother
      rcases List.mem_cons.mp hother with rfl | hother
      · split_ifs at hfirst
        · exact forkModMp_served (h cfg List.mem_cons_self) hfirst
        · cases hfirst
          exact h _ List.mem_cons_self
      · exact ih (fun other hother => h other (List.mem_cons_of_mem _ hother)) hrest other hother

namespace WebServer

variable {w w' : WebServer} {pid : ℤ} {servers : List MpSrvCfg} {l : List ServerEvent}

structure Sound (w : WebServer) : Prop where
  servers : ∀ cfg ∈ w.servers, Served cfg
  children : ∀ servers ∈ w.children, ∀ cfg ∈ servers, Served cfg
  memory : w.memory.Bounded

theorem Sound.cfg (h : w.Sound) {process : Option ℕ} {server : ℕ} {cfg : MpSrvCfg}
    (hcfg : w.cfg process server = some cfg) : Served cfg := by
  cases process with
  | none => exact h.servers cfg (List.mem_of_getElem? hcfg)
  | some child =>
      obtain ⟨servers, hchild, hserver⟩ := Option.bind_eq_some_iff.mp hcfg
      exact h.children servers (List.mem_of_getElem? hchild) cfg (List.mem_of_getElem? hserver)

theorem Sound.start (h : ∀ cfg ∈ servers, ∃ enable dir, cfg = mpConfigSrv enable dir) :
    (WebServer.start pid servers).Sound := by
  refine ⟨fun cfg hcfg => ?_, fun _ hchild => absurd hchild List.not_mem_nil,
    fun _ => Nat.zero_le _⟩
  obtain ⟨enable, dir, rfl⟩ := h cfg hcfg
  refine ⟨?_, fun _ hne => absurd rfl hne⟩
  cases enable with
  | true => exact .inr rfl
  | false => exact .inl rfl

theorem Sound.step (h : w.Sound) {e : ServerEvent} (hstep : Fires next w e w') : w'.Sound := by
  cases e with
  | postConfig results =>
      rw [Fires, next] at hstep
      split_ifs at hstep
      · cases hstep
        obtain ⟨hservers, hmemory⟩ := initServers_served h.servers h.memory w.pid results 0
        exact ⟨hservers, h.children, hmemory⟩
      · cases hstep
        exact ⟨h.servers, h.children, h.memory⟩
  | childInit pid attached =>
      obtain ⟨servers, hchild, rfl⟩ := Option.map_eq_some_iff.mp hstep
      refine ⟨h.servers, fun other hother => ?_, h.memory⟩
      rcases List.mem_append.mp hother with hother | hother
      · exact h.children other hother
      · rw [List.mem_singleton.mp hother]
        exact childServers_served h.servers hchild
  | addError process server call =>
      obtain ⟨errorMessages, -, rfl⟩ := Option.map_eq_some_iff.mp hstep
      exact ⟨h.servers, h.children, h.memory.addError errorMessages call⟩

/-- The document that `mp_handler` sends from a table. -/
structure Answers (printed : Printed → Bytes) (records : List ErrorMessage)
    (response : HttpResponse) : Prop where
  headers : response.headers =
    [(CString.ofAscii "Access-Control-Allow-Origin", CString.ofAscii "*")]
  contentType : response.contentType = CString.ofAscii "application/json"
  contentLength : response.contentLength = (textBytes printed response.body).length
  body : decode response.body = some (.object [(lit "Errors",
    errorsValue ((records ++ [noIndexerError.record]).take maxErrors))])

/-- The answer without an indexer fits into its table, whatever errors the server has. -/
theorem exists_answer (printed : Printed → Bytes) {errors : ErrorMessages}
    (h : errors.numErrors ≤ maxErrors) : ∃ copy output,
      errorMessagesDuplicate outputInit.errorMessages errors = some copy ∧
      outputStatusJson { outputInit with
        errorMessages := (errorMessagesAdd copy noIndexerError).2 } = some output ∧
      Answers printed errors.records (outputFinalize printed output) ∧
      Prints ((errors.records ++ [noIndexerError.record]).take maxErrors)
        output.bucketBrigade := by
  have hfits : outputInit.errorMessages.numErrors + errors.numErrors ≤ maxErrors :=
    (Nat.zero_add _).trans_le h
  have hcopy := errorMessagesDuplicate_eq outputInit.errorMessages errors
  rw [if_pos (.inr hfits)] at hcopy
  have hnum := (records_errorMessagesDuplicate hcopy).1.trans_le hfits
  have hcopied := JsonText.Value.array.inj (errorsValue_duplicate hcopy)
  obtain ⟨hrecords, hadded⟩ := records_errorMessagesAdd hnum noIndexerError
  obtain ⟨output, houtput⟩ : ∃ output, outputStatusJson { outputInit with
      errorMessages := (errorMessagesAdd _ noIndexerError).2 } = some output :=
    exists_outputStatusJson hadded
  obtain ⟨-, rfl⟩ := outputStatusJson_eq_some houtput
  have hprints : Prints ((errors.records ++ [noIndexerError.record]).take maxErrors)
      (statusText (errorMessagesAdd (outputInit.errorMessages.duplicateLoop errors errors.numErrors)
        noIndexerError).2) := by
    refine ⟨_, rfl, ?_⟩
    rw [hrecords, errorsValue, errorsValue, List.map_take, List.map_append, hcopied,
      ← List.map_append, ← List.map_take]
    rfl
  exact ⟨_, _, hcopy, houtput, ⟨rfl, rfl, rfl, hprints.decode⟩, hprints⟩

theorem mpHandler_answers (strnatcmp : CString → CString → ℤ) (printed : Printed → Bytes)
    {m : SharedMemory} (hm : m.Bounded) {cfg : MpSrvCfg} (h : Served cfg) (input : Input) :
    (mpHandler strnatcmp printed m cfg input = some .declined ∧
        (cfg.enable = 0 ∨ cfg.errorMessages = none)) ∨
      ∃ segment response, cfg.errorMessages = some segment ∧
        mpHandler strnatcmp printed m cfg input = some (.ok response) ∧
        Answers printed (m.segments segment).errorMessages.records response ∧
        Prints (((m.segments segment).errorMessages.records ++ [noIndexerError.record]).take
          maxErrors) response.body := by
  rw [mpHandler]
  rcases h.enable with hdisabled | henabled
  · rw [if_pos (by rw [hdisabled]; exact zero_ne_one)]
    exact .inl ⟨rfl, .inl hdisabled⟩
  · rw [if_neg (not_not.mpr henabled)]
    cases htable : cfg.errorMessages with
    | none => exact .inl ⟨rfl, .inr rfl⟩
    | some segment =>
        obtain ⟨indexManager, hmanager, hnameless⟩ := h.indexers
          (by rw [henabled]; exact one_ne_zero) (htable ▸ Option.some_ne_none _)
        have hn := hnameless (m.segments segment).errorMessages
        have hfind : ∃ status indexer, findIndexer strnatcmp
            ⟨cfg.allocated, cfg.indexers, indexManager, (m.segments segment).errorMessages⟩
            (input.indexerString.map CString.ofBytes) = some (status, indexer) ∧ status ≠ 0 := by
          cases input.indexerString with
          | none =>
              refine ⟨-1, none, if_neg ?_, by decide⟩
              rintro ⟨indexer, hmem, hnamed⟩
              exact hnamed (hn.friendlyName indexer hmem)
          | some name => exact ⟨_, _, rfl, hn.find_ne_zero strnatcmp _⟩
        obtain ⟨status, indexer, hfind, hstatus⟩ := hfind
        obtain ⟨copy, output, hcopy, houtput, hanswers, hprints⟩ :=
          exists_answer printed (hm segment)
        refine .inr ⟨segment, _, rfl, ?_, hanswers, hprints⟩
        dsimp only
        rw [hcopy, hmanager]
        change (findIndexer _ _ _).bind _ = _
        rw [hfind, Option.bind_some]
        dsimp only
        rw [if_pos hstatus, houtput]
        rfl

end WebServer

def missingFile : InitResults := ⟨⟨0, 0, 0⟩, 0, false⟩

def twoServers : List MpSrvCfg :=
  [mpConfigSrv true (CString.ofAscii "/etc/a"), mpConfigSrv true (CString.ofAscii "/etc/b")]

end ModMp
