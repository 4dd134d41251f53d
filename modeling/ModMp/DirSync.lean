import ModMp.ErrorLog
import ModMp.FlacTags
import ModMp.ReadDirList

/-!
# The thread that synchronises a directory

`sync_dir` lists a directory and gives each file whose tags can be read to the database. The
connection is tested before each song, and the thread ends without its transaction when it is lost.
What the calls outside return is given, for the file with that number; `sync_song` is one of them,
as its body is a comment. The `float` division of the progress, which is NaN for a single file, is
given as well. The branch for a list or a counter that is NULL cannot be reached.
-/

namespace ModMp
open CLib

/-- The strings of the text fields, and the length. -/
structure SongTags where
  text : TextField → Option CString
  length : ℤ

structure SyncedSong where
  tags : SongTags
  path : CString
  mtime : ℤ
  typeString : CString

/-- The files synchronised so far, and what the shared statistics have been: the progress and the
number of scanned files. -/
structure SyncState where
  errorMessages : ErrorMessages
  synced : List SyncedSong
  stats : List (UInt32 × ℤ)

def SyncState.addError (s : SyncState) (call : ErrorCall) : SyncState :=
  { s with errorMessages := (errorMessagesAdd s.errorMessages call).2 }

namespace SyncCalls

variable (calls : SyncCalls)

end SyncCalls

/-- One node and no files. -/
def DirScan.start (errorMessages : ErrorMessages) : DirScan :=
  ⟨fun _ => .empty, 1, 0, errorMessages⟩

section Thread

variable (calls : SyncCalls) (strerror : ℤ → CString) (strnatcasecmp : CString → CString → ℤ)

namespace Visit

def refusal : Visit → Option ErrorCall
  | .file _ _ => none
  | .refused path rv => some (openingError strerror path rv)

end Visit

def DirScan.Typed (s : DirScan) : Prop :=
  ∀ node path, (s.nodes node).path = some path →
    (s.nodes node).type = getFileExt strnatcasecmp path path.length

variable {strerror strnatcasecmp}

theorem DirScan.Typed.addFile {s s₂ : DirScan} (h : s.Typed strnatcasecmp) {fileList : Option ℕ}
    {path : CString} {mtime : ℤ} {next : Option ℕ}
    (hadd : s.addFile strnatcasecmp fileList path mtime = .ok (next, s₂)) :
    s₂.Typed strnatcasecmp ∧ s₂.errorMessages = s.errorMessages := by
  cases fileList with
  | none => cases hadd
  | some node =>
      cases hadd
      refine ⟨fun other otherPath hpath => ?_, rfl⟩
      dsimp only at hpath ⊢
      by_cases hnode : other = node
      · rw [hnode, Function.update_self] at hpath ⊢
        cases hpath
        rfl
      · rw [Function.update_of_ne hnode] at hpath ⊢
        by_cases hfresh : other = s.fresh
        · rw [hfresh, Function.update_self] at hpath
          cases hpath
        · rw [Function.update_of_ne hfresh] at hpath ⊢
          exact h other otherPath hpath

end Thread

section Songs

variable {calls : SyncCalls} {song : CString × ℤ → Option SyncedSong}

end Songs

section Result

variable (calls : SyncCalls) (strerror : ℤ → CString) (strnatcasecmp : CString → CString → ℤ)
  (dirPath : CString) (rv : ℤ) (entries : DirEntries) (song : CString × ℤ → Option SyncedSong)

variable {calls song}

end Result

end ModMp
