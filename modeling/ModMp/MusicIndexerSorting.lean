import ModMp.MusicIndexer

/-!
# The list to sort by

Each item of the value of `sort_by` that names a column adds a term to the clause, and each other
item adds an error. For a list of items with a direction and a friendly name each, the clause gets
the terms of all items when the list fits into the copy, and else those of the items that the copy
still has.
-/

namespace ModMp.MusicIndexer
open CLib Delimited

def commaJoined : List CString → CString
  | [] => CString.ofAscii ""
  | [t] => t
  | t :: ts => (t.append (CString.ofAscii ",")).append (commaJoined ts)

theorem commaJoined_bytes (ts : List CString) :
    (commaJoined ts).bytes = [commaByte].intercalate (ts.map CString.bytes) := by
  induction ts with
  | nil => rfl
  | cons t ts ih =>
      cases ts with
      | nil => rw [commaJoined, List.map_singleton, List.intercalate_singleton]
      | cons u ts =>
          rw [commaJoined, CString.append_bytes, CString.append_bytes, ih, List.map_cons,
            List.map_cons, List.map_cons, List.intercalate_cons_cons]
          · rfl
          · exact List.cons_ne_nil u ts

def listText (terms : List CString) : Option CString :=
  if terms = [] then none else some (commaJoined terms)

theorem listText_eq_iff {terms terms' : List CString} (h : terms ≠ []) (h' : terms' ≠ []) :
    listText terms = listText terms' ↔
      [commaByte].intercalate (terms.map CString.bytes) =
        [commaByte].intercalate (terms'.map CString.bytes) := by
  rw [listText, listText, if_neg h, if_neg h', Option.some.injEq, ← commaJoined_bytes,
    ← commaJoined_bytes]
  exact ⟨congrArg CString.bytes, CString.eq_of_bytes⟩

theorem listText_append_iff (u : List CString) {v v' : List CString} (h : v ≠ [])
    (h' : v' ≠ []) : listText (u ++ v) = listText (u ++ v') ↔ commaJoined v = commaJoined v' := by
  have hbytes : commaJoined v = commaJoined v' ↔
      [commaByte].intercalate (v.map CString.bytes) =
        [commaByte].intercalate (v'.map CString.bytes) := by
    rw [← commaJoined_bytes, ← commaJoined_bytes]
    exact ⟨congrArg CString.bytes, CString.eq_of_bytes⟩
  by_cases hu : u = []
  · rw [hu, List.nil_append, List.nil_append, listText, listText, if_neg h, if_neg h',
      Option.some.injEq]
  · have hne : u.map CString.bytes ≠ [] := by simpa using hu
    rw [listText_eq_iff (List.append_ne_nil_of_right_ne_nil u h)
      (List.append_ne_nil_of_right_ne_nil u h'), hbytes, List.map_append, List.map_append,
      intercalate_append hne (by simpa using h), intercalate_append hne (by simpa using h'),
      List.append_cancel_left_eq, List.cons.injEq, and_iff_right rfl]

theorem listText_append_ne (u : List CString) {v : List CString} (h : v ≠ []) :
    listText u ≠ listText (u ++ v) := by
  have happend : u ++ v ≠ [] := List.append_ne_nil_of_right_ne_nil u h
  by_cases hu : u = []
  · rw [hu, listText, listText, if_pos rfl, if_neg (by simpa using h)]
    simp
  · rw [Ne, listText_eq_iff hu happend, List.map_append,
      intercalate_append (by simpa using hu) (by simpa using h)]
    simp

theorem appendColumn_listText (terms : List CString) (term : CString) :
    some (appendColumn (listText terms) term) = listText (terms ++ [term]) := by
  have hne : terms ++ [term] ≠ [] := List.append_ne_nil_of_right_ne_nil terms (by simp)
  rw [listText, listText, if_neg hne]
  by_cases h : terms = []
  · rw [if_pos h, h]
    rfl
  · rw [if_neg h]
    refine congrArg some (CString.eq_of_bytes ?_)
    rw [commaJoined_bytes, List.map_append, intercalate_append (by simpa using h) (by simp),
      ← commaJoined_bytes, List.map_singleton, List.intercalate_singleton]
    exact List.append_assoc _ _ _

def appendTerms (value : Option CString) (terms : List CString) : Option CString :=
  terms.foldl (fun value term => some (appendColumn value term)) value

theorem appendTerms_append (value : Option CString) (terms terms' : List CString) :
    appendTerms value (terms ++ terms') = appendTerms (appendTerms value terms) terms' :=
  List.foldl_append

theorem appendTerms_listText (before terms : List CString) :
    appendTerms (listText before) terms = listText (before ++ terms) := by
  induction terms generalizing before with
  | nil => rw [List.append_nil, appendTerms, List.foldl_nil]
  | cons term terms ih =>
      rw [appendTerms, List.foldl_cons, appendColumn_listText, ← appendTerms, ih,
        List.append_assoc, List.singleton_append]

namespace LoopState

variable (s : LoopState)

/-- The state with another value of the ORDER BY clause. -/
def setOrder (value : Option CString) : LoopState :=
  let queryClause := { s.parameters.sqlClauses .orderBy with value := value }
  { s with parameters := { s.parameters with
    sqlClauses := Function.update s.parameters.sqlClauses .orderBy queryClause } }

/-- The list to sort by and the errors, which are all that the sort loop changes. -/
def setSorting (value : Option CString) (errorMessages : ErrorMessages) : LoopState :=
  { s.setOrder value with errorMessages := errorMessages }

@[simp] theorem setOrder_value (value : Option CString) :
    ((s.setOrder value).parameters.sqlClauses .orderBy).value = value := by
  simp [setOrder]

@[simp] theorem setOrder_setOrder (value value' : Option CString) :
    (s.setOrder value).setOrder value' = s.setOrder value' := by
  simp [setOrder]

theorem setOrder_self : s.setOrder (s.parameters.sqlClauses .orderBy).value = s := by
  simp [setOrder]

end LoopState

section Loop
variable {lib : Library} {query : DbQuery lib.strnatcasecmp}

def sortTerm (query : DbQuery lib.strnatcasecmp) (item : CString) : Option CString :=
  (query.findColumn (modifier item).2).map (fun column => columnText column (modifier item).1)

theorem sortStep_of_term {item term : CString} (h : sortTerm query item = some term)
    (s : LoopState) : sortStep lib query s item =
      s.setOrder (some (appendColumn (s.parameters.sqlClauses .orderBy).value term)) := by
  obtain ⟨column, hcolumn, rfl⟩ := Option.map_eq_some_iff.mp h
  unfold sortStep
  dsimp only
  rw [hcolumn]
  rfl

theorem sortStep_of_none {item : CString} (h : sortTerm query item = none) (s : LoopState) :
    sortStep lib query s item = s.addError (unknownColumn (modifier item).2) := by
  unfold sortStep
  dsimp only
  rw [Option.map_eq_none_iff.mp h]

theorem sortLoop_of_terms {items terms : List CString}
    (h : List.Forall₂ (fun item term => sortTerm query item = some term) items terms)
    (s : LoopState) : sortLoop lib query s items =
      s.setOrder (appendTerms (s.parameters.sqlClauses .orderBy).value terms) := by
  induction h generalizing s with
  | nil => exact s.setOrder_self.symm
  | @cons item term items terms hterm h ih =>
      rw [sortLoop, List.foldl_cons, sortStep_of_term hterm, ← sortLoop, ih,
        s.setOrder_setOrder, s.setOrder_value]
      rfl

theorem sortLoop_append (s : LoopState) (items items' : List CString) :
    sortLoop lib query s (items ++ items') =
      sortLoop lib query (sortLoop lib query s items) items' := List.foldl_append

variable (query)

theorem sortStep_shape (s : LoopState) (item : CString) :
    ∃ value errorMessages, sortStep lib query s item = s.setSorting value errorMessages := by
  cases hterm : sortTerm query item with
  | none =>
      rw [sortStep_of_none hterm]
      refine ⟨(s.parameters.sqlClauses .orderBy).value,
        (s.addError (unknownColumn (modifier item).2)).errorMessages, ?_⟩
      rw [LoopState.setSorting, s.setOrder_self]
      rfl
  | some term =>
      obtain ⟨column, hcolumn, -⟩ := Option.map_eq_some_iff.mp hterm
      refine ⟨some (appendColumn (s.parameters.sqlClauses .orderBy).value
        (columnText column (modifier item).1)), s.errorMessages, ?_⟩
      unfold sortStep
      dsimp only
      rw [hcolumn]
      rfl

theorem sortLoop_shape (s : LoopState) (items : List CString) :
    ∃ value errorMessages, sortLoop lib query s items = s.setSorting value errorMessages := by
  induction items generalizing s with
  | nil =>
      refine ⟨(s.parameters.sqlClauses .orderBy).value, s.errorMessages, ?_⟩
      rw [LoopState.setSorting, s.setOrder_self]
      rfl
  | cons item items ih =>
      obtain ⟨value, errorMessages, hitem⟩ := sortStep_shape query s item
      obtain ⟨value', errorMessages', hitems⟩ := ih (s.setSorting value errorMessages)
      refine ⟨value', errorMessages', ?_⟩
      rw [sortLoop, List.foldl_cons, hitem, ← sortLoop, hitems]
      simp [LoopState.setSorting, LoopState.setOrder]

end Loop

end ModMp.MusicIndexer
