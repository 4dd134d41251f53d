import ModMp.ErrorMessages

/-!
# The indexers and their manager

`indexerInit` allocates an indexer and fills it in, `indexManagerAdd` puts it at the head of the
manager's list, and `indexManagerFindIndexer` walks the list and compares friendly names. Indexers
are named by the numbers under which the pool allocates them, and whether a configuration file can
be opened is an argument. The natural-order comparison of APR is a parameter.
-/

namespace ModMp
open CLib

structure Indexer where
  id : Option CString
  friendlyName : Option CString
  deriving DecidableEq

/-- The indexer in memory that `apr_pcalloc` has cleared. -/
def Indexer.cleared : Indexer := ⟨none, none⟩

structure IndexManager where
  count : ℤ
  nodes : List ℕ

structure SrvConf where
  allocated : ℕ
  indexers : ℕ → Indexer
  indexManager : IndexManager
  errorMessages : ErrorMessages

def indexManagerInit (errorMessages : ErrorMessages) : SrvConf where
  allocated := 0
  indexers _ := .cleared
  indexManager := ⟨0, []⟩
  errorMessages := errorMessages

/-- The identifier and the configuration file of an indexer, and whether the file can be opened. -/
structure Registration where
  id : CString
  xmlConfigPath : CString
  opened : Bool

def xmlConfigError (path : CString) : ErrorCall where
  type := .error
  header := CString.ofAscii "Indexer Error"
  message := (CString.ofAscii "Check file permission or path (").append
    (path.append (CString.ofAscii ")"))

def indexerReadXmlConfig (r : Registration) (t : ErrorMessages) : ℤ × ErrorMessages :=
  if r.opened then (0, t) else (-1, (errorMessagesAdd t (xmlConfigError r.xmlConfigPath)).2)

/-- The status, the indexer left in `*indexer_ptr`, and the configuration after the call. -/
def indexerInit (r : Registration) (c : SrvConf) : ℤ × ℕ × SrvConf :=
  (0, c.allocated,
    { c with
      allocated := c.allocated + 1
      indexers := Function.update c.indexers c.allocated { Indexer.cleared with id := some r.id }
      errorMessages := (indexerReadXmlConfig r c.errorMessages).2 })

/-- The new node comes first, whether or not the list has nodes. -/
def indexManagerAdd (m : IndexManager) (indexer : ℕ) : IndexManager where
  count := m.count + 1
  nodes := indexer :: m.nodes

def findNode (strnatcmp : CString → CString → ℤ) (indexers : ℕ → Indexer) (indexerName : CString) :
    List ℕ → ℤ × Option ℕ
  | [] => (-1, none)
  | indexer :: nodes =>
      match (indexers indexer).friendlyName with
      | some friendlyName =>
          if strnatcmp friendlyName indexerName = 0 then (0, some indexer)
          else findNode strnatcmp indexers indexerName nodes
      | none => findNode strnatcmp indexers indexerName nodes

/-- The status, and the indexer written to `*indexer_ptr` if any. -/
def indexManagerFindIndexer (strnatcmp : CString → CString → ℤ) (c : SrvConf)
    (indexerName : CString) : ℤ × Option ℕ :=
  findNode strnatcmp c.indexers indexerName c.indexManager.nodes

/-- `indexer_init`, and `index_manager_add` of its result. -/
def register (c : SrvConf) (r : Registration) : SrvConf :=
  let (_, indexer, c) := indexerInit r c
  { c with indexManager := indexManagerAdd c.indexManager indexer }

/-- The registration that `mod_mp_init` makes. -/
def fileIndexer (indexerXmlConfigDir : CString) (opened : Bool) : Registration where
  id := CString.ofAscii "file"
  xmlConfigPath := indexerXmlConfigDir.append (CString.ofAscii "/file.xml")
  opened := opened

/-- After the registrations `rs` the name is found exactly when it is one of their identifiers, it
is then the indexer of the last registration with that identifier, and all of them are counted. -/
structure FindsRegistered (strnatcmp : CString → CString → ℤ) (c : SrvConf)
    (rs : List Registration) (name : CString) : Prop where
  status_iff : (indexManagerFindIndexer strnatcmp (rs.foldl register c) name).1 = 0 ↔
    name ∈ rs.map Registration.id
  latest : (indexManagerFindIndexer strnatcmp (rs.foldl register c) name).1 = 0 →
    ∃ before r after, rs = before ++ r :: after ∧ r.id = name ∧ (∀ r' ∈ after, r'.id ≠ name) ∧
      (indexManagerFindIndexer strnatcmp (rs.foldl register c) name).2 =
        some (indexerInit r (before.foldl register c)).2.1
  count : (rs.foldl register c).indexManager.count = c.indexManager.count + rs.length

theorem findNode_eq_zero_iff (strnatcmp : CString → CString → ℤ) (indexers : ℕ → Indexer)
    (name : CString) (nodes : List ℕ) : (findNode strnatcmp indexers name nodes).1 = 0 ↔
      ∃ indexer ∈ nodes, ∃ friendlyName, (indexers indexer).friendlyName = some friendlyName ∧
        strnatcmp friendlyName name = 0 := by
  induction nodes with
  | nil => simp [findNode]
  | cons indexer nodes ih =>
      rw [List.exists_mem_cons_iff, ← ih, findNode]
      cases hname : (indexers indexer).friendlyName with
      | none => simp
      | some friendlyName =>
          dsimp only
          split_ifs with heq
          · simp [heq]
          · simp [heq]

/-- No indexer of the list has a friendly name, and the rest of the pool is not in the list. -/
structure Nameless (c : SrvConf) : Prop where
  allocated : ∀ indexer ∈ c.indexManager.nodes, indexer < c.allocated
  friendlyName : ∀ indexer ∈ c.indexManager.nodes, (c.indexers indexer).friendlyName = none

namespace Nameless

variable {c : SrvConf}

theorem init (errorMessages : ErrorMessages) : Nameless (indexManagerInit errorMessages) where
  allocated _ h := absurd h List.not_mem_nil
  friendlyName _ h := absurd h List.not_mem_nil

theorem register (h : Nameless c) (r : Registration) : Nameless (register c r) := by
  constructor
  · intro indexer hmem
    rcases List.mem_cons.mp hmem with rfl | hmem
    · exact Nat.lt_succ_self _
    · exact Nat.lt_succ_of_lt (h.allocated indexer hmem)
  · intro indexer hmem
    rcases List.mem_cons.mp hmem with rfl | hmem
    · change (Function.update c.indexers c.allocated _ c.allocated).friendlyName = none
      rw [Function.update_self]
      rfl
    · change (Function.update c.indexers c.allocated _ indexer).friendlyName = none
      rw [Function.update_of_ne (h.allocated indexer hmem).ne]
      exact h.friendlyName indexer hmem

theorem foldl_register (h : Nameless c) (rs : List Registration) :
    Nameless (rs.foldl ModMp.register c) := by
  induction rs generalizing c with
  | nil => exact h
  | cons r rs ih => exact ih (h.register r)

theorem find_ne_zero (h : Nameless c) (strnatcmp : CString → CString → ℤ) (name : CString) :
    (indexManagerFindIndexer strnatcmp c name).1 ≠ 0 := by
  intro hfound
  obtain ⟨indexer, hmem, friendlyName, hname, -⟩ := (findNode_eq_zero_iff _ _ _ _).mp hfound
  rw [h.friendlyName indexer hmem] at hname
  cases hname

end Nameless

theorem count_foldl_register (c : SrvConf) (rs : List Registration) :
    (rs.foldl register c).indexManager.count = c.indexManager.count + rs.length := by
  induction rs generalizing c with
  | nil => simp
  | cons r rs ih =>
      have hcount : (register c r).indexManager.count = c.indexManager.count + 1 := rfl
      rw [List.foldl_cons, ih, hcount, List.length_cons]
      push_cast
      ring

/-- No registration can be found again: exactly the names that are not registered are answered
as they should be. -/
theorem findsRegistered_iff (strnatcmp : CString → CString → ℤ) (errorMessages : ErrorMessages)
    (rs : List Registration) (name : CString) :
    FindsRegistered strnatcmp (indexManagerInit errorMessages) rs name ↔
      name ∉ rs.map Registration.id := by
  have hne := ((Nameless.init errorMessages).foldl_register rs).find_ne_zero strnatcmp name
  constructor
  · intro h hmem
    exact hne (h.status_iff.mpr hmem)
  · intro hnot
    exact ⟨iff_of_false hne hnot, fun hfound => absurd hfound hne, count_foldl_register _ _⟩

def strcmpEq (a b : CString) : ℤ := if a = b then 0 else 1

def emptyTable : ErrorMessages := ⟨0, fun _ => ⟨.error, .replicate _ 0, .replicate _ 0⟩⟩

/-- The indexer `file` of the server is not found. -/
theorem fileIndexer_not_found : (∀ a b, strcmpEq a b = 0 ↔ a = b) ∧
    ¬ FindsRegistered strcmpEq (indexManagerInit emptyTable)
      [fileIndexer (CString.ofAscii "/etc/indexers") true] (CString.ofAscii "file") := by
  constructor
  · intro a b
    unfold strcmpEq
    split_ifs with h
    · exact iff_of_true rfl h
    · exact iff_of_false one_ne_zero h
  · intro h
    have hfound := h.status_iff.mpr (by decide)
    exact absurd hfound (by decide)

end ModMp
