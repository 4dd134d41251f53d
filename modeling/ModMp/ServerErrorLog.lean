import ModMp.RequestHandler

/-!
# The error log of the child processes

All servers name the same file, so that the file stands for the table of the server that was
initialised last, and every server of a child process is attached to this table. What is added for
one server is then in the responses of all, and what the other servers had before is in none.
-/

namespace ModMp
open CLib Runs

def mpErrorsFile : CString := CString.ofAscii "/tmp/mp_errors"

/-- Nothing but the file of the indexer is missing. -/
def InitResults.Succeeds (r : InitResults) : Prop := r.shm = ⟨0, 0, 0⟩ ∧ r.dbd = 0

/-- The errors of the table of a server when it is initialised. -/
def initErrors (r : InitResults) (cfg : MpSrvCfg) : List ErrorCall :=
  if r.opened then []
  else [xmlConfigError (fileIndexer cfg.indexerXmlConfigDir r.opened).xmlConfigPath]

structure Unused (cfg : MpSrvCfg) : Prop where
  errorsShmFile : cfg.errorsShmFile = mpErrorsFile
  errorMessages : cfg.errorMessages = none

theorem initErrors_records (r : InitResults) (cfg : MpSrvCfg) {t : ErrorMessages}
    (h : t.numErrors = 0) :
    (register (indexManagerInit t)
      (fileIndexer cfg.indexerXmlConfigDir r.opened)).errorMessages.records =
        (initErrors r cfg).map ErrorCall.record := by
  have hnil : t.records = [] := by
    rw [ErrorMessages.records, h]
    rfl
  change (indexerReadXmlConfig _ t).2.records = _
  rw [indexerReadXmlConfig, initErrors]
  cases hopened : r.opened with
  | true => exact hnil
  | false =>
      have hadd := (records_errorMessagesAdd (h.trans_le (Nat.zero_le _))
        (xmlConfigError (fileIndexer cfg.indexerXmlConfigDir false).xmlConfigPath)).1
      rw [hnil, List.nil_append] at hadd
      exact hadd

/-- An enabled server with a table in shared memory. -/
structure Initialised (pid : ℤ) (m : SharedMemory) (cfg : MpSrvCfg) (segment : ℕ) : Prop where
  pid : cfg.pid = pid
  errorMessages : cfg.errorMessages = some segment
  shmFile : (m.segments segment).shmFile = some mpErrorsFile
  lt : segment < m.fresh

theorem errorMessagesInitShared_eq (path : CString) (m : SharedMemory) :
    ∃ m₂, errorMessagesInitShared ⟨0, 0, 0⟩ path m = (0, some m.fresh, m₂) ∧
      m₂.fresh = m.fresh + 1 ∧ m₂.files path = some m.fresh ∧
      (m₂.segments m.fresh).shmFile = some path ∧
      (m₂.segments m.fresh).errorMessages.numErrors = 0 ∧
      ∀ segment < m.fresh, m₂.segments segment = m.segments segment := by
  have hsetup : setupSharedMemory ⟨0, 0, 0⟩ path m =
      (0, some m.fresh, (m.destroy path).create path) := by
    rw [setupSharedMemory, if_neg (not_not.mpr rfl), if_neg (not_not.mpr rfl),
      if_neg (not_not.mpr rfl), SharedMemory.fresh_destroy]
  rw [errorMessagesInitShared, hsetup]
  dsimp only
  rw [if_neg (not_not.mpr rfl)]
  refine ⟨_, rfl, ?_, ?_, ?_, ?_, fun segment hlt => ?_⟩
  · exact congrArg (· + 1) (m.fresh_destroy path)
  · change ((m.destroy path).create path).files path = _
    rw [SharedMemory.files_create_self, SharedMemory.fresh_destroy]
  · rw [SharedMemory.segments_write_self]
  · rw [SharedMemory.segments_write_self]
  · rw [SharedMemory.segments_write_of_ne _ hlt.ne,
      SharedMemory.segments_create_of_ne _ (by rw [SharedMemory.fresh_destroy]; exact hlt.ne),
      SharedMemory.segments_destroy]

/-- An initialised server has a segment of its own. -/
theorem modMpInit_eq {r : InitResults} (hr : r.Succeeds) (pid : ℤ) {cfg : MpSrvCfg}
    (h : Unused cfg) (m : SharedMemory) :
    ∃ cfg₂ m₂, modMpInit r pid cfg m = (cfg₂, m₂) ∧ Initialised pid m₂ cfg₂ m.fresh ∧
      cfg₂.enable = cfg.enable ∧ m₂.fresh = m.fresh + 1 ∧
      m₂.files mpErrorsFile = some m.fresh ∧
      (m₂.segments m.fresh).errorMessages.records = (initErrors r cfg).map ErrorCall.record ∧
      ∀ segment < m.fresh, m₂.segments segment = m.segments segment := by
  obtain ⟨m₁, hshared, hfresh, hfile, hshmFile, hnum, hold⟩ :=
    errorMessagesInitShared_eq mpErrorsFile m
  have hregister := initErrors_records r cfg hnum
  rw [modMpInit]
  dsimp only
  rw [hr.1, h.errorsShmFile, hshared]
  dsimp only
  rw [if_neg (not_or.mpr ⟨not_not.mpr rfl, not_not.mpr hr.2⟩)]
  refine ⟨_, _, rfl, ⟨rfl, rfl, ?_, ?_⟩, rfl, hfresh, hfile, ?_, fun segment hlt => ?_⟩
  · rw [SharedMemory.segments_write_self]
    exact hshmFile
  · exact hfresh ▸ Nat.lt_succ_self _
  · rw [SharedMemory.segments_write_self]
    exact hregister
  · rw [SharedMemory.segments_write_of_ne _ hlt.ne]
    exact hold segment hlt

/-- What the loop of `mp_post_config` leaves: each enabled server has a table, and the file stands
for the table of the last one. -/
structure Configured (pid : ℤ) (servers : List MpSrvCfg) (last segment : ℕ) (m : SharedMemory) :
    Prop where
  file : m.files mpErrorsFile = some segment
  disabled : ∀ cfg ∈ servers, cfg.enable = 0 → cfg.errorMessages = none
  enabled : ∀ i cfg, servers[i]? = some cfg → cfg.enable ≠ 0 →
    ∃ own, Initialised pid m cfg own ∧ (own = segment ↔ i = last)

theorem initServers_of_disabled {servers : List MpSrvCfg} (h : ∀ cfg ∈ servers, cfg.enable = 0)
    (pid : ℤ) (results : ℕ → InitResults) (i : ℕ) (m : SharedMemory) :
    initServers pid results i servers m = (servers, m) := by
  induction servers generalizing i with
  | nil => rfl
  | cons cfg servers ih =>
      rw [initServers, if_neg (not_not.mpr (h cfg List.mem_cons_self))]
      dsimp only
      rw [ih (fun other hother => h other (List.mem_cons_of_mem _ hother))]

theorem Initialised.mono {pid : ℤ} {m m₂ : SharedMemory} {cfg : MpSrvCfg} {segment : ℕ}
    (h : Initialised pid m cfg segment) (hfresh : m.fresh ≤ m₂.fresh)
    (hkept : ∀ segment < m.fresh, m₂.segments segment = m.segments segment) :
    Initialised pid m₂ cfg segment :=
  ⟨h.pid, h.errorMessages, (hkept segment h.lt).symm ▸ h.shmFile, h.lt.trans_le hfresh⟩

/-- The first server is the last one that is enabled. -/
theorem Configured.single {pid : ℤ} {m : SharedMemory} {cfg : MpSrvCfg} {servers : List MpSrvCfg}
    {segment : ℕ} (hfile : m.files mpErrorsFile = some segment)
    (h : Initialised pid m cfg segment) (henable : cfg.enable ≠ 0)
    (hservers : ∀ other ∈ servers, other.enable = 0 ∧ other.errorMessages = none) :
    Configured pid (cfg :: servers) 0 segment m := by
  refine ⟨hfile, fun other hother hzero => ?_, fun j other hj hother => ?_⟩
  · rcases List.mem_cons.mp hother with rfl | hother
    · exact absurd hzero henable
    · exact (hservers other hother).2
  · cases j with
    | zero =>
        cases hj
        exact ⟨segment, h, iff_of_true rfl rfl⟩
    | succ j => exact absurd (hservers other (List.mem_of_getElem? hj)).1 hother

theorem Configured.cons {pid : ℤ} {m : SharedMemory} {cfg : MpSrvCfg} {servers : List MpSrvCfg}
    {last segment : ℕ} (h : Configured pid servers last segment m)
    (hdisabled : cfg.enable = 0 → cfg.errorMessages = none)
    (henabled : cfg.enable ≠ 0 → ∃ own, Initialised pid m cfg own ∧ own ≠ segment) :
    Configured pid (cfg :: servers) (last + 1) segment m := by
  refine ⟨h.file, fun other hother => ?_, fun j other hj hother => ?_⟩
  · rcases List.mem_cons.mp hother with rfl | hother
    · exact hdisabled
    · exact h.disabled other hother
  · cases j with
    | zero =>
        cases hj
        obtain ⟨own, hinitialised, hne⟩ := henabled hother
        exact ⟨own, hinitialised, iff_of_false hne (Nat.succ_ne_zero _).symm⟩
    | succ j =>
        obtain ⟨own, hown, hiff⟩ := h.enabled j other hj hother
        exact ⟨own, hown, hiff.trans Nat.succ_inj.symm⟩

/-- What the loop does to one server: it has a segment of its own, if it is enabled. -/
theorem initServer_eq {r : InitResults} (hr : r.Succeeds) (pid : ℤ) {cfg : MpSrvCfg}
    (h : Unused cfg) (m : SharedMemory) :
    ∃ cfg₂ m₂, (if cfg.enable ≠ 0 then modMpInit r pid cfg m else (cfg, m)) = (cfg₂, m₂) ∧
      m.fresh ≤ m₂.fresh ∧ (∀ segment < m.fresh, m₂.segments segment = m.segments segment) ∧
      (cfg₂.enable = 0 → cfg₂.errorMessages = none) ∧
      (cfg₂.enable ≠ 0 → Initialised pid m₂ cfg₂ m.fresh) := by
  by_cases hne : cfg.enable ≠ 0
  · obtain ⟨cfg₂, m₂, hinit, hinitialised, henable, hfresh, -, -, hkept⟩ :=
      modMpInit_eq hr pid h m
    rw [if_pos hne]
    exact ⟨cfg₂, m₂, hinit, hfresh ▸ Nat.le_succ _, hkept,
      fun hzero => absurd (henable.symm.trans hzero) hne, fun _ => hinitialised⟩
  · rw [if_neg hne]
    exact ⟨cfg, m, rfl, le_rfl, fun _ _ => rfl, fun _ => h.errorMessages,
      fun hne₂ => absurd hne₂ hne⟩

theorem initServers_configured {servers : List MpSrvCfg} (hunused : ∀ cfg ∈ servers, Unused cfg)
    {results : ℕ → InitResults} (hok : ∀ i, (results i).Succeeds) (pid : ℤ) {last : ℕ}
    {cfg : MpSrvCfg} (hlast : servers[last]? = some cfg) (henable : cfg.enable ≠ 0)
    (hlater : ∀ j cfg, last < j → servers[j]? = some cfg → cfg.enable = 0) (i : ℕ)
    (m : SharedMemory) :
    ∃ servers₂ m₂ segment, initServers pid results i servers m = (servers₂, m₂) ∧
      m.fresh ≤ segment ∧ m.fresh ≤ m₂.fresh ∧ Configured pid servers₂ last segment m₂ ∧
      (∀ segment < m.fresh, m₂.segments segment = m.segments segment) ∧
      (m₂.segments segment).errorMessages.records =
        (initErrors (results (i + last)) cfg).map ErrorCall.record := by
  induction servers generalizing last i m with
  | nil => cases hlast
  | cons first servers ih =>
      have hrest : ∀ other ∈ servers, Unused other :=
        fun other hother => hunused other (List.mem_cons_of_mem _ hother)
      cases last with
      | zero =>
          cases hlast
          obtain ⟨cfg₂, m₂, hinit, hinitialised, henable₂, hfresh, hfile, hrecords, hkept⟩ :=
            modMpInit_eq (hok i) pid (hunused cfg List.mem_cons_self) m
          have hdisabled : ∀ other ∈ servers, other.enable = 0 := by
            intro other hother
            obtain ⟨j, hj⟩ := List.mem_iff_getElem?.mp hother
            exact hlater (j + 1) other (Nat.succ_pos j) hj
          refine ⟨cfg₂ :: servers, m₂, m.fresh, ?_, le_rfl, hfresh ▸ Nat.le_succ _,
            .single hfile hinitialised (henable₂ ▸ henable) fun other hother => ?_, hkept, hrecords⟩
          · rw [initServers, if_pos henable, hinit]
            dsimp only
            rw [initServers_of_disabled hdisabled]
          · exact ⟨hdisabled other hother, (hrest other hother).errorMessages⟩
      | succ last =>
          obtain ⟨cfg₂, m₁, hinit, hfresh₁, hkept₁, hdisabled, henabled⟩ :=
            initServer_eq (hok i) pid (hunused first List.mem_cons_self) m
          obtain ⟨servers₂, m₂, segment, hservers, hsegment, hfresh₂, hconfigured, hkept₂,
            hrecords⟩ := ih hrest hlast
              (fun j other hj hother => hlater (j + 1) other (Nat.succ_lt_succ hj) hother) (i + 1)
              m₁
          refine ⟨cfg₂ :: servers₂, m₂, segment, ?_, hfresh₁.trans hsegment,
            hfresh₁.trans hfresh₂, hconfigured.cons hdisabled fun hne => ?_, ?_, ?_⟩
          · rw [initServers, hinit]
            dsimp only
            rw [hservers]
          · have hinitialised := henabled hne
            exact ⟨m.fresh, hinitialised.mono hfresh₂ hkept₂,
              (hinitialised.lt.trans_le hsegment).ne⟩
          · exact fun other hother =>
              (hkept₂ other (hother.trans_le hfresh₁)).trans (hkept₁ other hother)
          · rw [hrecords, Nat.add_assoc, Nat.add_comm 1 last]

/-- What can happen to the configured servers: forks that can attach the memory, and errors. -/
def ServerEvent.Later (pid : ℤ) : ServerEvent → Prop
  | .postConfig _ => False
  | .childInit childPid attached => childPid ≠ pid ∧ ∀ i, attached i = true
  | .addError _ _ _ => True

/-- The errors that are added by a child process, or by the parent for the server `last`. -/
def ServerEvent.logged (last : ℕ) : ServerEvent → Option ErrorCall
  | .addError none server call => if server = last then some call else none
  | .addError (some _) _ call => some call
  | _ => none

/-- The servers of a child have the table `segment`. -/
def ShareTable (segment : ℕ) (servers : List MpSrvCfg) : Prop :=
  ∀ cfg ∈ servers, cfg.errorMessages = if cfg.enable = 0 then none else some segment

theorem childServers_shareTable {servers servers₂ : List MpSrvCfg} {m : SharedMemory}
    {pid childPid : ℤ} {segment : ℕ} (hfile : m.files mpErrorsFile = some segment)
    (hservers : ∀ cfg ∈ servers, (cfg.enable = 0 → cfg.errorMessages = none) ∧
      (cfg.enable ≠ 0 → ∃ own, Initialised pid m cfg own))
    {attached : ℕ → Bool} (hpid : childPid ≠ pid) (hattached : ∀ i, attached i = true) {i : ℕ}
    (hchild : childServers childPid attached m i servers = some servers₂) :
    ShareTable segment servers₂ := by
  induction servers generalizing servers₂ i with
  | nil =>
      cases hchild
      exact fun cfg hcfg => absurd hcfg List.not_mem_nil
  | cons cfg servers ih =>
      rw [childServers] at hchild
      obtain ⟨cfg₂, hfirst, hchild⟩ := Option.bind_eq_some_iff.mp hchild
      obtain ⟨rest, hrest, rfl⟩ := Option.map_eq_some_iff.mp hchild
      have hshared := ih (fun other hother => hservers other (List.mem_cons_of_mem _ hother)) hrest
      obtain ⟨hdisabled, henabled⟩ := hservers cfg List.mem_cons_self
      intro other hother
      rcases List.mem_cons.mp hother with rfl | hother
      · by_cases hne : cfg.enable = 0
        · rw [if_neg (fun h => h.1 hne)] at hfirst
          cases hfirst
          rw [if_pos hne, hdisabled hne]
        · obtain ⟨own, hown⟩ := henabled hne
          have hfork : errorMessagesOnFork (attached i) m own = some (0, segment) := by
            rw [errorMessagesOnFork, hown.shmFile]
            dsimp only
            rw [hfile, hattached i]
            rfl
          rw [if_pos ⟨hne, hown.pid.symm ▸ hpid⟩, forkModMp, hown.errorMessages] at hfirst
          change (errorMessagesOnFork _ _ _).bind _ = _ at hfirst
          rw [hfork] at hfirst
          cases hfirst
          exact (if_neg hne).symm
      · exact hshared other hother

namespace WebServer

/-- The table holds what it held at first and what was logged, as long as there was room. -/
structure Logs (pid : ℤ) (servers : List MpSrvCfg) (last segment : ℕ) (base : List ErrorCall)
    (l : List ServerEvent) (w : WebServer) : Prop where
  parent : w.servers = servers
  configured : Configured pid servers last segment w.memory
  children : ∀ child ∈ w.children, ShareTable segment child
  bounded : w.memory.Bounded
  records : (w.memory.segments segment).errorMessages.records =
    ((base ++ l.filterMap (ServerEvent.logged last)).map ErrorCall.record).take maxErrors

variable {pid : ℤ} {servers : List MpSrvCfg} {last segment : ℕ} {base : List ErrorCall}
  {l : List ServerEvent} {w w' : WebServer}

theorem shmFile_addError (m : SharedMemory) (own other : ℕ) (call : ErrorCall) :
    ((m.addError own call).segments other).shmFile = (m.segments other).shmFile := by
  by_cases heq : other = own
  · rw [heq, SharedMemory.addError, SharedMemory.segments_write_self]
  · rw [SharedMemory.addError, SharedMemory.segments_write_of_ne _ heq]

theorem configured_addError (h : Configured pid servers last segment w.memory) (own : ℕ)
    (call : ErrorCall) : Configured pid servers last segment (w.memory.addError own call) := by
  refine ⟨h.file, h.disabled, fun i cfg hi hne => ?_⟩
  obtain ⟨other, hother, hiff⟩ := h.enabled i cfg hi hne
  exact ⟨other, ⟨hother.pid, hother.errorMessages,
    (shmFile_addError w.memory own other call).trans hother.shmFile, hother.lt⟩, hiff⟩

/-- An error is logged if and only if it goes into the table. -/
theorem Logs.logged_iff (h : Logs pid servers last segment base l w) {process : Option ℕ}
    {server own : ℕ} {cfg : MpSrvCfg} (hcfg : w.cfg process server = some cfg)
    (hown : cfg.errorMessages = some own) (call : ErrorCall) :
    (ServerEvent.addError process server call).logged last =
      if own = segment then some call else none := by
  cases process with
  | none =>
      have hserver : servers[server]? = some cfg := h.parent ▸ hcfg
      have hne : cfg.enable ≠ 0 := by
        intro hzero
        rw [h.configured.disabled cfg (List.mem_of_getElem? hserver) hzero] at hown
        cases hown
      obtain ⟨other, hother, hiff⟩ := h.configured.enabled server cfg hserver hne
      cases hother.errorMessages.symm.trans hown
      rw [ServerEvent.logged]
      simp only [hiff]
  | some child =>
      obtain ⟨servers₂, hchild, hserver⟩ := Option.bind_eq_some_iff.mp hcfg
      have hshared := h.children servers₂ (List.mem_of_getElem? hchild) cfg
        (List.mem_of_getElem? hserver)
      rw [hown] at hshared
      split_ifs at hshared
      cases hshared
      exact (if_pos rfl).symm

theorem Logs.step (h : Logs pid servers last segment base l w) {e : ServerEvent}
    (hlater : e.Later pid) (hstep : Fires next w e w') :
    Logs pid servers last segment base (l ++ [e]) w' := by
  cases e with
  | postConfig results => exact hlater.elim
  | childInit childPid attached =>
      obtain ⟨servers₂, hchild, rfl⟩ := Option.map_eq_some_iff.mp hstep
      refine ⟨h.parent, h.configured, fun child hmem => ?_, h.bounded, ?_⟩
      · rcases List.mem_append.mp hmem with hmem | hmem
        · exact h.children child hmem
        · rw [List.mem_singleton.mp hmem]
          rw [h.parent] at hchild
          refine childServers_shareTable h.configured.file (fun cfg hcfg => ⟨h.configured.disabled
            cfg hcfg, fun hne => ?_⟩) hlater.1 hlater.2 hchild
          obtain ⟨i, hi⟩ := List.mem_iff_getElem?.mp hcfg
          obtain ⟨own, hown, -⟩ := h.configured.enabled i cfg hi hne
          exact ⟨own, hown⟩
      · rw [List.filterMap_append]
        exact h.records.trans (by rw [List.filterMap_cons_none rfl, List.filterMap_nil,
          List.append_nil])
  | addError process server call =>
      obtain ⟨own, hown, rfl⟩ := Option.map_eq_some_iff.mp hstep
      obtain ⟨cfg, hcfg, hown⟩ := Option.bind_eq_some_iff.mp hown
      have hlogged := h.logged_iff hcfg hown call
      refine ⟨h.parent, configured_addError h.configured own call, h.children,
        h.bounded.addError own call, ?_⟩
      change ((w.memory.addError own call).segments segment).errorMessages.records = _
      rw [List.filterMap_append, SharedMemory.addError]
      by_cases heq : own = segment
      · subst heq
        rw [if_pos rfl] at hlogged
        rw [SharedMemory.segments_write_self, (records_errorMessagesAdd (h.bounded own) call).1,
          h.records, take_take_append, List.filterMap_cons_some hlogged, List.filterMap_nil]
        simp only [List.map_append, List.map_singleton, List.append_assoc]
      · rw [if_neg heq] at hlogged
        rw [SharedMemory.segments_write_of_ne _ (Ne.symm heq), h.records,
          List.filterMap_cons_none hlogged, List.filterMap_nil, List.append_nil]

theorem Logs.postConfig (pid : ℤ) {results : ℕ → InitResults} (hok : ∀ i, (results i).Succeeds)
    (hservers : ∀ cfg ∈ servers, ∃ enable dir, cfg = mpConfigSrv enable dir) {dir : CString}
    (hlast : servers[last]? = some (mpConfigSrv true dir))
    (hlater : ∀ j cfg, last < j → servers[j]? = some cfg → cfg.enable = 0)
    (first : ℕ → InitResults) :
    ∃ w servers₂ segment,
      execute next (start pid servers) [.postConfig first, .postConfig results] = some w ∧
        Logs pid servers₂ last segment (initErrors (results last) (mpConfigSrv true dir)) [] w := by
  have hunused : ∀ cfg ∈ servers, Unused cfg := by
    intro cfg hcfg
    obtain ⟨enable, dir, rfl⟩ := hservers cfg hcfg
    exact ⟨rfl, rfl⟩
  obtain ⟨servers₂, m, segment, hinit, -, -, hconfigured, -, hrecords⟩ :=
    initServers_configured hunused hok pid hlast one_ne_zero hlater 0
      (start pid servers).memory
  have hsound : (start pid servers).Sound := .start hservers
  have hbounded := (initServers_served hsound.servers hsound.memory pid results 0).2
  refine ⟨⟨true, pid, servers₂, [], m⟩, servers₂, segment, ?_, rfl, hconfigured,
    fun _ hmem => absurd hmem List.not_mem_nil, ?_, ?_⟩
  · change some { (start pid servers) with
      userdata := true
      servers := (initServers pid results 0 servers (start pid servers).memory).1
      memory := (initServers pid results 0 servers (start pid servers).memory).2 } = _
    rw [hinit]
    rfl
  · change (initServers pid results 0 servers (start pid servers).memory).2.Bounded at hbounded
    rwa [hinit] at hbounded
  · rw [hrecords, Nat.zero_add, List.filterMap_nil, List.append_nil, List.take_of_length_le]
    rw [List.length_map, initErrors]
    split_ifs
    · exact Nat.zero_le maxErrors
    · exact Nat.le_of_ble_eq_true rfl

end WebServer

open WebServer in
/-- The servers of the child processes share the table of the last enabled server: each response
has what the initialisation of that server logged and then, in order, what the children have logged
for any server and the parent for that one. -/
theorem children_share_one_table (strnatcmp : CString → CString → ℤ)
    (printed : Printed → Bytes) {pid : ℤ} {servers : List MpSrvCfg}
    (hservers : ∀ cfg ∈ servers, ∃ enable dir, cfg = mpConfigSrv enable dir) {last : ℕ}
    {dir : CString} (hlast : servers[last]? = some (mpConfigSrv true dir))
    (hlater : ∀ j cfg, last < j → servers[j]? = some cfg → cfg.enable = 0)
    (first : ℕ → InitResults) {results : ℕ → InitResults} (hok : ∀ i, (results i).Succeeds)
    {l : List ServerEvent} (hl : ∀ e ∈ l, e.Later pid) {w : WebServer}
    (hrun : execute next (start pid servers) (.postConfig first :: .postConfig results :: l) =
      some w)
    {child server : ℕ} {cfg : MpSrvCfg} (hcfg : w.cfg (some child) server = some cfg)
    (henable : cfg.enable = 1) (input : Input) :
    ∃ response, mpHandler strnatcmp printed w.memory cfg input = some (.ok response) ∧
      Answers printed ((initErrors (results last) (mpConfigSrv true dir) ++
        l.filterMap (ServerEvent.logged last)).map ErrorCall.record) response := by
  obtain ⟨w₀, servers₂, segment, hconfig, hlogs⟩ :=
    Logs.postConfig pid hok hservers hlast hlater first
  have hsound : w.Sound := (run_of_execute hrun).invariant (.start hservers)
    (fun _ _ _ h hstep => h.step hstep)
  have hlogs : Logs pid servers₂ last segment (initErrors (results last) (mpConfigSrv true dir))
      l w := by
    change execute next _ ([.postConfig first, .postConfig results] ++ l) = _ at hrun
    rw [execute_append, hconfig] at hrun
    refine (run_of_execute hrun).history (I := fun l w => (∀ e ∈ l, e.Later pid) →
      Logs pid servers₂ last segment (initErrors (results last) (mpConfigSrv true dir)) l w)
      (fun _ => hlogs) (fun l w e w' h hstep hl => ?_) hl
    obtain ⟨hl, he⟩ := List.forall_mem_append.mp hl
    exact (h hl).step (he e (List.mem_singleton_self e)) hstep
  have hshared : cfg.errorMessages = some segment := by
    obtain ⟨others, hchild, hserver⟩ := Option.bind_eq_some_iff.mp hcfg
    have hshared := hlogs.children others (List.mem_of_getElem? hchild) cfg
      (List.mem_of_getElem? hserver)
    rwa [henable, if_neg one_ne_zero] at hshared
  rcases mpHandler_answers strnatcmp printed hsound.memory (hsound.cfg hcfg) input with
    ⟨-, hdisabled | hnone⟩ | ⟨own, response, hown, hresponse, hanswers, -⟩
  · cases henable.symm.trans hdisabled
  · cases hshared.symm.trans hnone
  · cases hshared.symm.trans hown
    refine ⟨response, hresponse, hanswers.headers, hanswers.contentType, hanswers.contentLength, ?_⟩
    rw [hanswers.body, hlogs.records, take_take_append]

/-- The file of the second server's indexer is missing, and an error is added for the first. -/
theorem children_share_one_table_two_servers : ∃ (w : WebServer) (cfg : MpSrvCfg),
    execute WebServer.next (.start 1 twoServers)
      (.postConfig (fun _ => missingFile) :: .postConfig (fun _ => missingFile) ::
        [.childInit 2 (fun _ => true), .addError none 0 noIndexerError,
          .addError (some 0) 0 noIndexerError]) = some w ∧
    w.cfg (some 0) 0 = some cfg ∧ cfg.enable = 1 ∧
      ∃ response, mpHandler strcmpEq (fun _ => []) w.memory cfg ⟨0, none, none, none, none⟩ =
          some (.ok response) ∧
        WebServer.Answers (fun _ => [])
          [(xmlConfigError (fileIndexer (CString.ofAscii "/etc/b") false).xmlConfigPath).record,
            noIndexerError.record] response := by
  have hrun : ∃ w, execute WebServer.next (.start 1 twoServers)
      (.postConfig (fun _ => missingFile) :: .postConfig (fun _ => missingFile) ::
        [.childInit 2 (fun _ => true), .addError none 0 noIndexerError,
          .addError (some 0) 0 noIndexerError]) = some w ∧
      ∃ cfg, w.cfg (some 0) 0 = some cfg ∧ cfg.enable = 1 :=
    ⟨_, rfl, _, rfl, rfl⟩
  obtain ⟨w, hrun, cfg, hcfg, henable⟩ := hrun
  refine ⟨w, cfg, hrun, hcfg, henable, ?_⟩
  have hlast : twoServers[1]? = some (mpConfigSrv true (CString.ofAscii "/etc/b")) := rfl
  refine children_share_one_table strcmpEq (fun _ => []) ?_ hlast ?_
    (fun _ => missingFile) (fun _ => ⟨rfl, rfl⟩) ?_ hrun hcfg henable ⟨0, none, none, none, none⟩
  · intro cfg hcfg
    fin_cases hcfg <;> exact ⟨_, _, rfl⟩
  · intro j cfg hj hcfg
    match j, hj, hcfg with
    | j + 2, _, hcfg => cases hcfg
  · intro e he
    fin_cases he
    · exact ⟨by decide, fun _ => rfl⟩
    all_goals trivial

end ModMp
