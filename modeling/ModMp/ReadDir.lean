import ModMp.ErrorMessages

/-!
# Directory scanning

`read_dir` appends the regular files of a directory tree to a linked list. It is given the empty
node at the end of the list and returns the new one, and it returns NULL for a directory that
cannot be opened. Nodes are named by numbers, and `apr_pcalloc` takes the next free one. The
content of a directory is what `apr_dir_read` delivers, in its order. A directory that is visited is
a list of visits of files and of refused directories, and the recursion is a run over that list.
-/

namespace ModMp
open CLib

inductive FileType
  | mp3
  | flac
  | ogg
  | unknown
  deriving DecidableEq

structure FileNode where
  path : Option CString
  mtime : ℤ
  type : FileType
  next : Option ℕ
  deriving DecidableEq

def FileNode.empty : FileNode := ⟨none, 0, .mp3, none⟩

/-- The entries of a directory. A subdirectory comes with what `apr_dir_open` returns for it. -/
inductive DirEntries
  | nil
  | reg (name : CString) (mtime : ℤ) (rest : DirEntries)
  | dir (name : CString) (status : ℤ) (entries rest : DirEntries)
  | other (name : CString) (rest : DirEntries)

structure DirScan where
  nodes : ℕ → FileNode
  fresh : ℕ
  count : ℕ
  errorMessages : ErrorMessages

inductive DirFault
  | nullNode
  deriving DecidableEq

def dot : UInt8 := 0x2E

/-- The loop of `get_file_ext`, from an index of the path down to 1. -/
def getFileExt (strnatcasecmp : CString → CString → ℤ) (path : CString) : ℕ → FileType
  | 0 => .unknown
  | i + 1 =>
      if path.bytes[i + 1]? = some dot then
        let ext := CString.ofBytes (path.bytes.drop (i + 2))
        if strnatcasecmp ext (CString.ofAscii "flac") = 0 then .flac
        else if strnatcasecmp ext (CString.ofAscii "ogg") = 0 then .ogg
        else if strnatcasecmp ext (CString.ofAscii "mp3") = 0 then .mp3
        else .unknown
      else getFileExt strnatcasecmp path i

def filePath (dirPath name : CString) : CString :=
  (dirPath.append (CString.ofAscii "/")).append name

def openingError (strerror : ℤ → CString) (dirPath : CString) (rv : ℤ) : ErrorCall where
  type := .error
  header := ((((CString.ofAscii "Error opening directory (").append dirPath).append
    (CString.ofAscii ") (")).append (CString.ofAscii (toString rv))).append (CString.ofAscii ")")
  message := strerror rv

variable (strerror : ℤ → CString) (strnatcasecmp : CString → CString → ℤ)

/-- The branch of `read_dir` for a regular file. -/
def DirScan.addFile (s : DirScan) (fileList : Option ℕ) (path : CString) (mtime : ℤ) :
    Except DirFault (Option ℕ × DirScan) :=
  let fileListNew := s.fresh
  let s := { s with
    nodes := Function.update s.nodes fileListNew .empty
    fresh := s.fresh + 1
    count := s.count + 1 }
  match fileList with
  | none => .error .nullNode
  | some node => .ok (some fileListNew, { s with
      nodes := Function.update s.nodes node
        ⟨some path, mtime, getFileExt strnatcasecmp path path.length, some fileListNew⟩ })

def DirScan.addOpeningError (s : DirScan) (dirPath : CString) (rv : ℤ) : DirScan :=
  { s with
    errorMessages := (errorMessagesAdd s.errorMessages (openingError strerror dirPath rv)).2 }

/-- `read_dir` with its loop as an argument. -/
def openDir (dirPath : CString) (rv : ℤ)
    (loop : DirScan → Except DirFault (Option ℕ × DirScan)) (s : DirScan) :
    Except DirFault (Option ℕ × DirScan) :=
  if rv ≠ 0 then .ok (none, s.addOpeningError strerror dirPath rv) else loop s

def readEntries (dirPath : CString) :
    DirEntries → Option ℕ → DirScan → Except DirFault (Option ℕ × DirScan)
  | .nil, fileList, s => .ok (fileList, s)
  | .reg name mtime rest, fileList, s =>
      (s.addFile strnatcasecmp fileList (filePath dirPath name) mtime).bind
        (fun r => readEntries dirPath rest r.1 r.2)
  | .dir name rv entries rest, fileList, s =>
      (if name.bytes.head? ≠ some dot then
        openDir strerror (filePath dirPath name) rv
          (readEntries (filePath dirPath name) entries fileList) s
      else .ok (fileList, s)).bind (fun r => readEntries dirPath rest r.1 r.2)
  | .other _ rest, fileList, s => readEntries dirPath rest fileList s

def readDir (dirPath : CString) (rv : ℤ) (entries : DirEntries) (fileList : Option ℕ) :
    DirScan → Except DirFault (Option ℕ × DirScan) :=
  openDir strerror dirPath rv (readEntries strerror strnatcasecmp dirPath entries fileList)

/-- What the traversal meets: a regular file, or a directory that it cannot open. -/
inductive Visit
  | file (path : CString) (mtime : ℤ)
  | refused (path : CString) (rv : ℤ)
  deriving DecidableEq

namespace DirEntries

def visits (dirPath : CString) : DirEntries → List Visit
  | .nil => []
  | .reg name mtime rest => .file (filePath dirPath name) mtime :: rest.visits dirPath
  | .dir name rv entries rest =>
      (if name.bytes.head? = some dot then []
      else if rv ≠ 0 then [.refused (filePath dirPath name) rv]
      else entries.visits (filePath dirPath name)) ++ rest.visits dirPath
  | .other _ rest => rest.visits dirPath

def files (dirPath : CString) : DirEntries → List (CString × ℤ)
  | .nil => []
  | .reg name mtime rest => (filePath dirPath name, mtime) :: rest.files dirPath
  | .dir name rv entries rest =>
      (if name.bytes.head? ≠ some dot ∧ rv = 0 then entries.files (filePath dirPath name)
      else []) ++ rest.files dirPath
  | .other _ rest => rest.files dirPath

end DirEntries

namespace Visit

def listed : Visit → Option (CString × ℤ)
  | .file path mtime => some (path, mtime)
  | .refused _ _ => none

def run : List Visit → Option ℕ → DirScan → Except DirFault (Option ℕ × DirScan)
  | [], fileList, s => .ok (fileList, s)
  | .file path mtime :: l, fileList, s =>
      (s.addFile strnatcasecmp fileList path mtime).bind (fun r => run l r.1 r.2)
  | .refused path rv :: l, _, s => run l none (s.addOpeningError strerror path rv)

theorem run_append (l m : List Visit) (fileList : Option ℕ) (s : DirScan) :
    run strerror strnatcasecmp (l ++ m) fileList s =
      (run strerror strnatcasecmp l fileList s).bind
        (fun r => run strerror strnatcasecmp m r.1 r.2) := by
  induction l generalizing fileList s with
  | nil => rfl
  | cons v l ih =>
      cases v with
      | file path mtime =>
          rw [List.cons_append, run, run]
          cases s.addFile strnatcasecmp fileList path mtime with
          | error fault => rfl
          | ok r => exact ih r.1 r.2
      | refused path rv => exact ih none _

end Visit

theorem readEntries_eq_run (dirPath : CString) (entries : DirEntries) (fileList : Option ℕ)
    (s : DirScan) : readEntries strerror strnatcasecmp dirPath entries fileList s =
      Visit.run strerror strnatcasecmp (entries.visits dirPath) fileList s := by
  induction entries generalizing dirPath fileList s with
  | nil => rfl
  | reg name mtime rest ih =>
      rw [readEntries, DirEntries.visits, Visit.run]
      simp only [ih]
  | dir name rv entries rest ihentries ihrest =>
      rw [readEntries, DirEntries.visits, Visit.run_append]
      simp only [ihrest]
      congr 1
      by_cases hhidden : name.bytes.head? = some dot
      · rw [if_neg (not_not_intro hhidden), if_pos hhidden]
        rfl
      rw [if_pos hhidden, if_neg hhidden]
      by_cases hrefused : rv ≠ 0
      · rw [if_pos hrefused]
        exact if_pos hrefused
      · rw [if_neg hrefused]
        exact (if_neg hrefused).trans (ihentries _ _ _)
  | other name rest ih =>
      rw [readEntries, DirEntries.visits]
      exact ih _ _ _

theorem filterMap_visits (dirPath : CString) (entries : DirEntries) :
    (entries.visits dirPath).filterMap Visit.listed = entries.files dirPath := by
  induction entries generalizing dirPath with
  | nil => rfl
  | reg name mtime rest ih =>
      rw [DirEntries.visits, DirEntries.files, ← ih dirPath]
      rfl
  | dir name rv entries rest ihentries ihrest =>
      rw [DirEntries.visits, DirEntries.files, List.filterMap_append, ihrest]
      congr 1
      by_cases hhidden : name.bytes.head? = some dot
      · rw [if_pos hhidden, if_neg (fun h => h.1 hhidden)]
        rfl
      rw [if_neg hhidden]
      by_cases hrefused : rv ≠ 0
      · rw [if_pos hrefused, if_neg (fun h => hrefused h.2)]
        rfl
      · rw [if_neg hrefused, if_pos ⟨hhidden, not_not.mp hrefused⟩]
        exact ihentries _
  | other name rest ih =>
      rw [DirEntries.visits, DirEntries.files]
      exact ih _

end ModMp
