import ModMp.ReadDir

/-!
# The list that directory scanning leaves

As long as no directory has been refused the nodes from the first on are the files visited so far,
and the last of them is empty. The first refusal loses the last node, so that the list is complete
exactly if no regular file is visited after it.
-/

namespace ModMp
open CLib

/-- The list from a node on, up to the first node with a NULL path. -/
def Lists (nodes : ℕ → FileNode) (node : ℕ) : List (CString × ℤ) → Prop
  | [] => (nodes node).path = none
  | file :: l => (nodes node).path = some file.1 ∧ (nodes node).mtime = file.2 ∧
      ∃ next, (nodes node).next = some next ∧ Lists nodes next l

/-- The nodes that hold `l`, from `node` up to `last`, which are allocated one after the other. -/
def Segment (nodes : ℕ → FileNode) (last node : ℕ) : List (CString × ℤ) → Prop
  | [] => node = last
  | file :: l => (nodes node).path = some file.1 ∧ (nodes node).mtime = file.2 ∧
      ∃ next, (nodes node).next = some next ∧ node < next ∧ Segment nodes last next l

namespace Segment

variable {nodes nodes₂ : ℕ → FileNode} {last node : ℕ} {l : List (CString × ℤ)}

theorem le (h : Segment nodes last node l) : node ≤ last := by
  induction l generalizing node with
  | nil => exact h.le
  | cons file l ih =>
      obtain ⟨-, -, next, -, hlt, hrest⟩ := h
      exact hlt.le.trans (ih hrest)

theorem lists (h : Segment nodes last node l) (hlast : (nodes last).path = none) :
    Lists nodes node l := by
  induction l generalizing node with
  | nil =>
      rw [Lists, show node = last from h]
      exact hlast
  | cons file l ih =>
      obtain ⟨hpath, hmtime, next, hnext, -, hrest⟩ := h
      exact ⟨hpath, hmtime, next, hnext, ih hrest⟩

theorem snoc {file : CString × ℤ} {new : ℕ} (h : Segment nodes last node l) (hlt : last < new)
    (hkept : ∀ i < last, nodes₂ i = nodes i) (hpath : (nodes₂ last).path = some file.1)
    (hmtime : (nodes₂ last).mtime = file.2) (hnext : (nodes₂ last).next = some new) :
    Segment nodes₂ new node (l ++ [file]) := by
  induction l generalizing node with
  | nil =>
      cases (show node = last from h)
      exact ⟨hpath, hmtime, new, hnext, hlt, rfl⟩
  | cons first l ih =>
      obtain ⟨hfirst, htime, next, hlink, hlt, hrest⟩ := h
      have hsame := hkept node (hlt.trans_le hrest.le)
      rw [List.cons_append, Segment, hsame]
      exact ⟨hfirst, htime, next, hlink, hlt, ih hrest⟩

end Segment

/-- No regular file is visited after a directory that cannot be opened. -/
def NoFileAfterRefusal (l : List Visit) : Prop :=
  l.Pairwise (fun first second => first.listed = none → second.listed = none)

instance (l : List Visit) : Decidable (NoFileAfterRefusal l) :=
  inferInstanceAs (Decidable (l.Pairwise _))

variable (strerror : ℤ → CString) (strnatcasecmp : CString → CString → ℤ)

/-- Without a node the first file dereferences NULL, and refusals change neither nodes nor count. -/
theorem run_none_cases (l : List Visit) (s : DirScan) :
    ((∃ v ∈ l, v.listed ≠ none) ∧ Visit.run strerror strnatcasecmp l none s = .error .nullNode) ∨
      ((∀ v ∈ l, v.listed = none) ∧ ∃ errorMessages,
        Visit.run strerror strnatcasecmp l none s =
          .ok (none, { s with errorMessages := errorMessages })) := by
  induction l generalizing s with
  | nil => exact .inr ⟨nofun, s.errorMessages, rfl⟩
  | cons v l ih =>
      cases v with
      | file path mtime =>
          exact .inl ⟨⟨_, List.mem_cons_self, nofun⟩, rfl⟩
      | refused path rv =>
          rcases ih (s.addOpeningError strerror path rv) with
            ⟨⟨v, hv, hlisted⟩, hrun⟩ | ⟨hnone, errorMessages, hrun⟩
          · exact .inl ⟨⟨v, List.mem_cons_of_mem _ hv, hlisted⟩, hrun⟩
          · refine .inr ⟨?_, errorMessages, hrun⟩
            intro v hv
            rcases List.mem_cons.mp hv with rfl | hv
            · rfl
            · exact hnone v hv

/-- What has been built when the files `done` have been visited and no directory was refused. -/
structure Built (start last : ℕ) (done : List (CString × ℤ)) (s : DirScan) : Prop where
  segment : Segment s.nodes last start done
  empty : (s.nodes last).path = none
  allocated : last < s.fresh

theorem Built.addFile {start last : ℕ} {done : List (CString × ℤ)} {s : DirScan}
    (h : Built start last done s) (path : CString) (mtime : ℤ) :
    ∃ s₂, s.addFile strnatcasecmp (some last) path mtime = .ok (some s.fresh, s₂) ∧
      Built start s.fresh (done ++ [(path, mtime)]) s₂ ∧ s₂.count = s.count + 1 := by
  have hne : s.fresh ≠ last := h.allocated.ne'
  refine ⟨_, rfl, ⟨?_, ?_, Nat.lt_succ_self _⟩, rfl⟩
  · apply h.segment.snoc h.allocated
    · intro i hi
      dsimp only
      rw [Function.update_of_ne hi.ne, Function.update_of_ne (hi.trans h.allocated).ne]
    all_goals
      dsimp only
      rw [Function.update_self]
  · dsimp only
    rw [Function.update_of_ne hne, Function.update_self]
    rfl

theorem Built.run_iff {start last : ℕ} {done : List (CString × ℤ)} {s : DirScan}
    (h : Built start last done s) (l : List Visit) :
    (∃ fileList s₂, Visit.run strerror strnatcasecmp l (some last) s = .ok (fileList, s₂) ∧
      Lists s₂.nodes start (done ++ l.filterMap Visit.listed) ∧
      s₂.count = s.count + (l.filterMap Visit.listed).length) ↔ NoFileAfterRefusal l := by
  induction l generalizing last done s with
  | nil =>
      refine iff_of_true ⟨some last, s, rfl, ?_, rfl⟩ .nil
      rw [List.filterMap_nil, List.append_nil]
      exact h.segment.lists h.empty
  | cons v l ih =>
      rw [NoFileAfterRefusal, List.pairwise_cons]
      cases v with
      | file path mtime =>
          obtain ⟨s₂, hadd, hbuilt, hcount⟩ := h.addFile strnatcasecmp path mtime
          have hfile : (Visit.file path mtime :: l).filterMap Visit.listed =
              (path, mtime) :: l.filterMap Visit.listed := rfl
          have hfirst : ∀ w ∈ l, (Visit.file path mtime).listed = none → w.listed = none :=
            fun _ _ hnone => absurd hnone (Option.some_ne_none _)
          rw [Visit.run, hadd, hfile, and_iff_right hfirst]
          have hrest := ih hbuilt
          rw [List.append_assoc, hcount, Nat.add_assoc, Nat.add_comm 1] at hrest
          exact hrest
      | refused path rv =>
          have hfiles : (Visit.refused path rv :: l).filterMap Visit.listed =
              l.filterMap Visit.listed := rfl
          rw [Visit.run, hfiles]
          rcases run_none_cases strerror strnatcasecmp l (s.addOpeningError strerror path rv) with
            ⟨⟨v, hv, hlisted⟩, hrun⟩ | ⟨hnone, errorMessages, hrun⟩
          · refine iff_of_false ?_ (fun hpairs => hlisted (hpairs.1 v hv rfl))
            rintro ⟨fileList, s₂, hok, -⟩
            cases hrun.symm.trans hok
          · have hempty : l.filterMap Visit.listed = [] := List.filterMap_eq_nil_iff.mpr hnone
            refine iff_of_true ⟨_, _, hrun, ?_, ?_⟩ ⟨fun w hw _ => hnone w hw, ?_⟩
            · rw [hempty, List.append_nil]
              exact h.segment.lists h.empty
            · rw [hempty]
              rfl
            · exact List.Pairwise.imp_of_mem (fun _ hw _ _ => hnone _ hw)
                (List.pairwise_of_forall (fun _ _ => trivial))

/-- From an empty node on the list is complete, and the count right, exactly if no regular file is
visited after a directory that cannot be opened. -/
theorem readDir_complete_iff (dirPath : CString) (entries : DirEntries) {node : ℕ} {s : DirScan}
    (hempty : s.nodes node = .empty) (hallocated : node < s.fresh) :
    (∃ fileList s₂,
      readDir strerror strnatcasecmp dirPath 0 entries (some node) s = .ok (fileList, s₂) ∧
      Lists s₂.nodes node (entries.files dirPath) ∧
      s₂.count = s.count + (entries.files dirPath).length) ↔
    NoFileAfterRefusal (entries.visits dirPath) := by
  have hbuilt : Built node node [] s := by
    refine ⟨rfl, ?_, hallocated⟩
    rw [hempty]
    rfl
  have hrun : readDir strerror strnatcasecmp dirPath 0 entries (some node) s =
      Visit.run strerror strnatcasecmp (entries.visits dirPath) (some node) s :=
    readEntries_eq_run strerror strnatcasecmp dirPath entries (some node) s
  rw [hrun, ← filterMap_visits]
  exact hbuilt.run_iff strerror strnatcasecmp _

def startScan : DirScan where
  nodes _ := .empty
  fresh := 1
  count := 0
  errorMessages := ⟨0, fun _ => (openingError (fun _ => CString.ofAscii "")
    (CString.ofAscii "") 0).record⟩

def lockedLast : DirEntries :=
  .reg (CString.ofAscii "a.mp3") 5 (.dir (CString.ofAscii "locked") 13 .nil .nil)

theorem readDir_complete_lockedLast : ∃ fileList s₂,
    readDir (fun _ => CString.ofAscii "Permission denied") (fun s t => if s = t then 0 else 1)
      (CString.ofAscii "/music") 0 lockedLast (some 0) startScan = .ok (fileList, s₂) ∧
    Lists s₂.nodes 0 (lockedLast.files (CString.ofAscii "/music")) ∧
    s₂.count = 0 + (lockedLast.files (CString.ofAscii "/music")).length :=
  (readDir_complete_iff _ _ (CString.ofAscii "/music") lockedLast rfl Nat.one_pos).mpr (by decide)

def lockedFirst : DirEntries :=
  .dir (CString.ofAscii "locked") 13 .nil (.reg (CString.ofAscii "a.mp3") 5 .nil)

theorem readDir_lockedFirst_faults :
    readDir (fun _ => CString.ofAscii "Permission denied") (fun s t => if s = t then 0 else 1)
      (CString.ofAscii "/music") 0 lockedFirst (some 0) startScan = .error .nullNode := rfl

end ModMp
