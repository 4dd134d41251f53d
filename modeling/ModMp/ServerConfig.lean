import ModMp.IndexManager
import ModMp.OutputJson

/-!
# The servers and their error tables

Each server of the web server has a configuration, and all of them name the same file for the
shared memory of their error table. `mp_post_config` initialises the enabled servers, from its
second call on, and `mp_child_init` attaches the memory again in a child process. A file stands for
the segment that was created last under its name; a segment that lost its file stays where it is
attached. Segments are named by numbers, and the results of the system's calls are arguments. The
database, whose functions do nothing more than start the driver, and the error pointers of the
indexers are left out.
-/

namespace ModMp
open CLib

/-- An `error_messages_t` in shared memory. -/
structure ErrorSegment where
  errorMessages : ErrorMessages
  shmFile : Option CString

structure SharedMemory where
  fresh : ℕ
  segments : ℕ → ErrorSegment
  files : CString → Option ℕ

/-- What `apr_shm_create` and the two calls of `shmctl` return in the end. -/
structure ShmResults where
  create : ℤ
  stat : ℤ
  set : ℤ

def ErrorSegment.cleared : ErrorSegment := ⟨emptyTable, none⟩

namespace SharedMemory

/-- The segment of an existing file loses it. -/
def destroy (m : SharedMemory) (path : CString) : SharedMemory :=
  if (m.files path).isSome then { m with files := Function.update m.files path none } else m

def create (m : SharedMemory) (path : CString) : SharedMemory where
  fresh := m.fresh + 1
  segments := Function.update m.segments m.fresh .cleared
  files := Function.update m.files path (some m.fresh)

def write (m : SharedMemory) (segment : ℕ) (f : ErrorSegment → ErrorSegment) : SharedMemory :=
  { m with segments := Function.update m.segments segment (f (m.segments segment)) }

/-- `error_messages_add` on a table in shared memory. -/
def addError (m : SharedMemory) (segment : ℕ) (call : ErrorCall) : SharedMemory :=
  m.write segment (fun s => { s with errorMessages := (errorMessagesAdd s.errorMessages call).2 })

variable (m : SharedMemory)

@[simp] theorem segments_write_self (segment : ℕ) (f : ErrorSegment → ErrorSegment) :
    (m.write segment f).segments segment = f (m.segments segment) := Function.update_self _ _ _

theorem segments_write_of_ne {segment other : ℕ} (h : other ≠ segment)
    (f : ErrorSegment → ErrorSegment) :
    (m.write segment f).segments other = m.segments other := Function.update_of_ne h _ _

@[simp] theorem segments_create_self (path : CString) :
    (m.create path).segments m.fresh = .cleared := Function.update_self _ _ _

theorem segments_create_of_ne {segment : ℕ} (h : segment ≠ m.fresh) (path : CString) :
    (m.create path).segments segment = m.segments segment := Function.update_of_ne h _ _

@[simp] theorem files_create_self (path : CString) :
    (m.create path).files path = some m.fresh := Function.update_self _ _ _

@[simp] theorem segments_destroy (path : CString) : (m.destroy path).segments = m.segments := by
  rw [destroy]
  split_ifs <;> rfl

@[simp] theorem fresh_destroy (path : CString) : (m.destroy path).fresh = m.fresh := by
  rw [destroy]
  split_ifs <;> rfl

end SharedMemory

/-- The status, the segment and the memory after the call. -/
def setupSharedMemory (r : ShmResults) (path : CString) (m : SharedMemory) :
    ℤ × Option ℕ × SharedMemory :=
  let m := m.destroy path
  if r.create ≠ 0 then (-1, none, m)
  else
    let shm := m.fresh
    let m := m.create path
    if r.stat ≠ 0 then (-2, some shm, m)
    else if r.set ≠ 0 then (-3, some shm, m)
    else (0, some shm, m)

def aprEnomem : ℤ := 12

/-- The status, the table left in `*error_messages_ptr`, and the memory after the call. -/
def errorMessagesInitShared (r : ShmResults) (errorsShmFile : CString) (m : SharedMemory) :
    ℤ × Option ℕ × SharedMemory :=
  let (status, shm, m) := setupSharedMemory r errorsShmFile m
  if status ≠ 0 then (aprEnomem, none, m)
  else
    match shm with
    | none => (aprEnomem, none, m)
    | some segment => (0, some segment, m.write segment (fun s =>
        ⟨⟨0, s.errorMessages.messages⟩, some errorsShmFile⟩))

/-- The table left in `*error_messages`. A table without a file leads to a base address of NULL. -/
def errorMessagesOnFork (attached : Bool) (m : SharedMemory) (errorMessages : ℕ) :
    Option (ℤ × ℕ) :=
  match (m.segments errorMessages).shmFile with
  | none => none
  | some shmFile =>
      match m.files shmFile with
      | some segment => if attached then some (0, segment) else some (-1, errorMessages)
      | none => some (-1, errorMessages)

/-- The fields of `mp_srv_cfg` that the module uses, and the pool of its indexers. -/
structure MpSrvCfg where
  enable : ℤ
  pid : ℤ
  errorsShmFile : CString
  errorMessages : Option ℕ
  indexerXmlConfigDir : CString
  allocated : ℕ
  indexers : ℕ → Indexer
  indexManager : Option IndexManager

/-- `mp_config_srv`, and the commands that set two of the fields. -/
def mpConfigSrv (enable : Bool) (indexerXmlConfigDir : CString) : MpSrvCfg where
  enable := if enable then 1 else 0
  pid := 0
  errorsShmFile := CString.ofAscii "/tmp/mp_errors"
  errorMessages := none
  indexerXmlConfigDir := indexerXmlConfigDir
  allocated := 0
  indexers _ := .cleared
  indexManager := none

/-- What the calls of `mod_mp_init` find: the shared memory, the driver, and the file of the
indexer. -/
structure InitResults where
  shm : ShmResults
  dbd : ℤ
  opened : Bool

/-- The configuration and the memory after `mod_mp_init`, which returns -1 when it disables. -/
def modMpInit (r : InitResults) (pid : ℤ) (cfg : MpSrvCfg) (m : SharedMemory) :
    MpSrvCfg × SharedMemory :=
  let cfg := { cfg with pid := pid }
  let (status, errorMessages, m) := errorMessagesInitShared r.shm cfg.errorsShmFile m
  match errorMessages with
  | none => ({ cfg with enable := 0 }, m)
  | some errorMessages =>
      let cfg := { cfg with errorMessages := some errorMessages }
      if status ≠ 0 ∨ r.dbd ≠ 0 then ({ cfg with enable := 0 }, m)
      else
        let c := register (indexManagerInit (m.segments errorMessages).errorMessages)
          (fileIndexer cfg.indexerXmlConfigDir r.opened)
        ({ cfg with
            allocated := c.allocated
            indexers := c.indexers
            indexManager := some c.indexManager },
          m.write errorMessages (fun s => { s with errorMessages := c.errorMessages }))

/-- The loop of `mp_post_config` over the servers, from the one with number `i` on. -/
def initServers (pid : ℤ) (results : ℕ → InitResults) :
    ℕ → List MpSrvCfg → SharedMemory → List MpSrvCfg × SharedMemory
  | _, [], m => ([], m)
  | i, cfg :: servers, m =>
      let (cfg, m) := if cfg.enable ≠ 0 then modMpInit (results i) pid cfg m else (cfg, m)
      let (servers, m) := initServers pid results (i + 1) servers m
      (cfg :: servers, m)

/-- `fork_mod_mp`; a server without a table dereferences NULL. -/
def forkModMp (attached : Bool) (m : SharedMemory) (cfg : MpSrvCfg) : Option MpSrvCfg := do
  let errorMessages ← cfg.errorMessages
  let (_, errorMessages) ← errorMessagesOnFork attached m errorMessages
  return { cfg with errorMessages := some errorMessages }

/-- The loop of `mp_child_init`. -/
def childServers (pid : ℤ) (attached : ℕ → Bool) (m : SharedMemory) :
    ℕ → List MpSrvCfg → Option (List MpSrvCfg)
  | _, [] => some []
  | i, cfg :: servers =>
      (if cfg.enable ≠ 0 ∧ pid ≠ cfg.pid then forkModMp (attached i) m cfg else some cfg).bind
        (fun cfg => (childServers pid attached m (i + 1) servers).map (cfg :: ·))

/-- The parent process, the child processes, and the memory that they share. -/
structure WebServer where
  userdata : Bool
  pid : ℤ
  servers : List MpSrvCfg
  children : List (List MpSrvCfg)
  memory : SharedMemory

/-- A process is the parent or a child. -/
inductive ServerEvent
  | postConfig (results : ℕ → InitResults)
  | childInit (pid : ℤ) (attached : ℕ → Bool)
  | addError (process : Option ℕ) (server : ℕ) (call : ErrorCall)

namespace WebServer

/-- The configuration of a server in a process. -/
def cfg (w : WebServer) (process : Option ℕ) (server : ℕ) : Option MpSrvCfg :=
  match process with
  | none => w.servers[server]?
  | some child => w.children[child]?.bind (fun servers => servers[server]?)

def next (w : WebServer) : ServerEvent → Option WebServer
  | .postConfig results =>
      if w.userdata then
        let (servers, memory) := initServers w.pid results 0 w.servers w.memory
        some { w with servers := servers, memory := memory }
      else some { w with userdata := true }
  | .childInit pid attached =>
      (childServers pid attached w.memory 0 w.servers).map (fun servers =>
        { w with children := w.children ++ [servers] })
  | .addError process server call =>
      ((w.cfg process server).bind MpSrvCfg.errorMessages).map (fun errorMessages =>
        { w with memory := w.memory.addError errorMessages call })

def start (pid : ℤ) (servers : List MpSrvCfg) : WebServer where
  userdata := false
  pid := pid
  servers := servers
  children := []
  memory := ⟨0, fun _ => .cleared, fun _ => none⟩

end WebServer

end ModMp
