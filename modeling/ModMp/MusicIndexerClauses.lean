import ModMp.IntegerConditions
import ModMp.MusicIndexerSortItems
import ModMp.MusicIndexerSteps

/-!
# What clients write into the SQL clauses

A list to sort by is made of schema names only, and no key names the GROUP BY clause. A limit and an
offset are the words of the client. So an iteration keeps the clauses safe when it stores no word,
or a number.
-/

namespace ModMp.MusicIndexer
open CLib

section Safe
variable {lib : Library} (query : DbQuery lib.strnatcasecmp)

/-- A column of the schema, with a direction behind it or without one. -/
def IsSortTerm (term : CString) : Prop :=
  ∃ column ∈ query.columns, ∃ direction : Direction, term = columnText column direction.suffix

def SafeValue : SqlClause → CString → Prop
  | .limit, value | .offset, value => IsNumber value.bytes
  | .groupBy, _ => False
  | .orderBy, value => ∃ terms, terms ≠ [] ∧ (∀ term ∈ terms, IsSortTerm query term) ∧
      value = commaJoined terms

def SafeClauses (p : DbQueryParameters) : Prop :=
  ∀ clause value, (p.sqlClauses clause).value = some value → SafeValue query clause value

variable {query}

theorem SafeClauses.init : SafeClauses query dbQueryParametersInit := by
  intro clause value h
  cases h

theorem SafeClauses.setValue {s : LoopState} (h : SafeClauses query s.parameters)
    {clause : SqlClause} {value : CString} (hvalue : SafeValue query clause value) :
    SafeClauses query (s.setValue clause value).parameters := by
  intro other stored hstored
  by_cases hother : other = clause
  · subst hother
    simp only [LoopState.setValue, DbQueryParameters.setValue, Function.update_self,
      Option.some.injEq] at hstored
    rwa [← hstored]
  · simp only [LoopState.setValue, DbQueryParameters.setValue,
      Function.update_of_ne hother] at hstored
    exact h other stored hstored

theorem modifier_suffix (item : CString) :
    ∃ direction : Direction, (modifier item).1 = direction.suffix := by
  unfold modifier
  split_ifs
  · exact ⟨.ascending, rfl⟩
  · exact ⟨.descending, rfl⟩
  · exact ⟨.unset, rfl⟩

theorem isSortTerm_of_sortTerm {item term : CString} (h : sortTerm query item = some term) :
    IsSortTerm query term := by
  obtain ⟨column, hcolumn, rfl⟩ := Option.map_eq_some_iff.mp h
  obtain ⟨direction, hdirection⟩ := modifier_suffix item
  exact ⟨column, (query.found _ _ hcolumn).1, direction, by rw [hdirection]⟩

theorem SafeClauses.appendColumn {p : DbQueryParameters} (h : SafeClauses query p)
    {term : CString} (hterm : IsSortTerm query term) :
    SafeValue query .orderBy (appendColumn (p.sqlClauses .orderBy).value term) := by
  have hlist : ∃ terms, (∀ term ∈ terms, IsSortTerm query term) ∧
      (p.sqlClauses .orderBy).value = listText terms := by
    cases hvalue : (p.sqlClauses .orderBy).value with
    | none => exact ⟨[], by simp, rfl⟩
    | some value =>
        obtain ⟨terms, hne, hterms, rfl⟩ := h .orderBy value hvalue
        exact ⟨terms, hterms, (if_neg hne).symm⟩
  obtain ⟨terms, hterms, hvalue⟩ := hlist
  have hne : terms ++ [term] ≠ [] := List.append_ne_nil_of_right_ne_nil terms (by simp)
  have happend : listText (terms ++ [term]) = some (commaJoined (terms ++ [term])) := if_neg hne
  rw [hvalue]
  refine ⟨terms ++ [term], hne, ?_,
    Option.some.inj ((appendColumn_listText terms term).trans happend)⟩
  intro other hother
  rcases List.mem_append.mp hother with hother | hother
  · exact hterms other hother
  · rwa [List.mem_singleton.mp hother]

theorem SafeClauses.sortStep {s : LoopState} (h : SafeClauses query s.parameters)
    (item : CString) : SafeClauses query (sortStep lib query s item).parameters := by
  cases hterm : sortTerm query item with
  | none =>
      rw [sortStep_of_none hterm]
      exact h
  | some term =>
      obtain ⟨column, hcolumn, htext⟩ := Option.map_eq_some_iff.mp hterm
      unfold MusicIndexer.sortStep
      dsimp only
      rw [hcolumn]
      refine h.setValue (h.appendColumn ?_)
      rw [htext]
      exact isSortTerm_of_sortTerm hterm

theorem SafeClauses.sortLoop {s : LoopState} (h : SafeClauses query s.parameters)
    (items : List CString) : SafeClauses query (sortLoop lib query s items).parameters := by
  induction items generalizing s with
  | nil => exact h
  | cons item items ih => exact ih (h.sortStep item)

/-- A pair with a limit or an offset has a number. -/
def Numeric (query : DbQuery lib.strnatcasecmp) (pair : CString × CString) : Prop :=
  treatment lib query pair.1 = .clause .limit ∨ treatment lib query pair.1 = .clause .offset →
    IsNumber pair.2.bytes

theorem SafeClauses.next {noun value : CString} {s t : LoopState} (hs : Standard s)
    (h : SafeClauses query s.parameters)
    (hnumeric : Numeric query (noun, value))
    (hstep : nounStep lib query noun value s = .ok (.next t)) :
    SafeClauses query t.parameters := by
  have hnouns : SafeClauses query (s.addNouns noun value).parameters := h
  rcases nounStep_next_cases hs hstep with ⟨column, -, -, -, rfl⟩ | ⟨column, -, -, -, rfl⟩ |
    ⟨clause, htreatment, hclause, rfl⟩ | ⟨-, rfl⟩
  · exact h
  · exact h
  · cases clause with
    | limit => exact hnouns.setValue (hnumeric (.inl htreatment))
    | offset => exact hnouns.setValue (hnumeric (.inr htreatment))
    | groupBy => exact absurd htreatment treatment_ne_groupBy
    | orderBy => exact absurd rfl hclause
  · exact hnouns.sortLoop _

end Safe

end ModMp.MusicIndexer
