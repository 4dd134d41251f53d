import ModMp.MusicIndexerSteps
import ModMp.Segments

/-!
# What accepted pairs do

A pair is accepted when it is taken without an error. Accepted pairs add their conditions in order,
leave the last limit and the last offset, and add the columns named by the copies of their sort
lists.
-/

namespace ModMp.MusicIndexer
open CLib Segments

section Pairs
variable {lib : Library} (query : DbQuery lib.strnatcasecmp)

def Accepted (pair : CString × CString) : Prop :=
  match treatment lib query pair.1 with
  | .condition column =>
      concatenates column.toDbTableColumn pair.2 = false ∧
        Admitted column.toDbTableColumn pair.2
  | .clause .orderBy => ∀ item ∈ sortItems pair.2, sortTerm query item ≠ none
  | .clause _ => True
  | .unknown => False

/-- The condition that a pair adds. -/
def conditionOf (pair : CString × CString) : Option QueryWhereCondition :=
  match treatment lib query pair.1 with
  | .condition column => some (whereEntry column.toDbTableColumn pair.2)
  | _ => none

/-- The value that a pair gives to the clause. -/
def givenValue (clause : SqlClause) (pair : CString × CString) : Option CString :=
  match treatment lib query pair.1 with
  | .clause other => if other = clause then some pair.2 else none
  | _ => none

def givenValues (clause : SqlClause) (l : List (CString × CString)) : List CString :=
  l.filterMap (givenValue query clause)

def copiedTerms (l : List (CString × CString)) : List CString :=
  (givenValues query .orderBy l).flatMap (fun value =>
    (sortItems value).filterMap (sortTerm query))

/-- What the pairs have done between two states. -/
structure Effect (l : List (CString × CString)) (s t : LoopState) : Prop where
  conditions : t.parameters.whereConditions =
    s.parameters.whereConditions ++ l.filterMap (conditionOf query)
  words : ∀ clause, clause ≠ .orderBy → (t.parameters.sqlClauses clause).value =
    (givenValues query clause l).getLast?.or (s.parameters.sqlClauses clause).value
  order : (t.parameters.sqlClauses .orderBy).value =
    appendTerms (s.parameters.sqlClauses .orderBy).value (copiedTerms query l)
  errorMessages : t.errorMessages = s.errorMessages

end Pairs

section Run
variable {lib : Library} {query : DbQuery lib.strnatcasecmp} {s t u : LoopState}

theorem Effect.refl (s : LoopState) : Effect query [] s s where
  conditions := (List.append_nil _).symm
  words _ _ := rfl
  order := rfl
  errorMessages := rfl

theorem Effect.trans {l l' : List (CString × CString)} (h : Effect query l s t)
    (h' : Effect query l' t u) : Effect query (l ++ l') s u where
  conditions := by
    rw [h'.conditions, h.conditions, List.filterMap_append, List.append_assoc]
  words clause hclause := by
    rw [h'.words clause hclause, h.words clause hclause, givenValues, givenValues, givenValues,
      List.filterMap_append, List.getLast?_append, Option.or_assoc]
  order := by
    rw [h'.order, h.order, ← appendTerms_append, copiedTerms, copiedTerms, copiedTerms,
      ← List.flatMap_append, givenValues, givenValues, givenValues, List.filterMap_append]
  errorMessages := h'.errorMessages.trans h.errorMessages

theorem forall₂_filterMap {items : List CString}
    (h : ∀ item ∈ items, sortTerm query item ≠ none) :
    List.Forall₂ (fun item term => sortTerm query item = some term) items
      (items.filterMap (sortTerm query)) := by
  induction items with
  | nil => exact .nil
  | cons item items ih =>
      obtain ⟨term, hterm⟩ := Option.ne_none_iff_exists'.mp (h item List.mem_cons_self)
      rw [List.filterMap_cons_some hterm]
      exact .cons hterm (ih (fun other hother => h other (List.mem_cons_of_mem _ hother)))

section Step
variable {noun value : CString}

theorem effect_condition {column : ColumnTable}
    (h : treatment lib query noun = .condition column) (noun' value' : CString) :
    Effect query [(noun, value)] s
      ((s.addCondition column.toDbTableColumn value).addNouns noun' value') := by
  have hnone : ∀ clause, givenValues query clause [(noun, value)] = [] := by
    intro clause
    simp [givenValues, givenValue, h]
  refine ⟨?_, fun clause _ => ?_, ?_, rfl⟩
  · simp [conditionOf, h, LoopState.addNouns, LoopState.addCondition]
  · rw [hnone]
    rfl
  · rw [copiedTerms, hnone]
    rfl

theorem effect_value {clause : SqlClause} (h : treatment lib query noun = .clause clause)
    (hne : clause ≠ .orderBy) :
    Effect query [(noun, value)] s ((s.addNouns noun value).setValue clause value) := by
  refine ⟨?_, fun other _ => ?_, ?_, rfl⟩
  · simp [conditionOf, h, LoopState.addNouns, LoopState.setValue, DbQueryParameters.setValue]
  · by_cases hother : clause = other
    · subst hother
      simp [givenValues, givenValue, h, LoopState.setValue, DbQueryParameters.setValue]
    · simp [givenValues, givenValue, h, hother, LoopState.addNouns, LoopState.setValue,
        DbQueryParameters.setValue, Ne.symm hother]
  · have hnone : givenValues query .orderBy [(noun, value)] = [] := by
      simp [givenValues, givenValue, h, hne]
    rw [copiedTerms, hnone]
    simp [appendTerms, LoopState.addNouns, LoopState.setValue, DbQueryParameters.setValue,
      hne.symm]

theorem effect_sorting (h : treatment lib query noun = .clause .orderBy)
    (hitems : ∀ item ∈ sortItems value, sortTerm query item ≠ none) :
    Effect query [(noun, value)] s
      (sortLoop lib query (s.addNouns noun value) (sortItems value)) := by
  rw [sortLoop_of_terms (forall₂_filterMap hitems)]
  refine ⟨?_, fun other hother => ?_, ?_, rfl⟩
  · simp [conditionOf, h, LoopState.addNouns, LoopState.setOrder]
  · simp [givenValues, givenValue, h, LoopState.addNouns, LoopState.setOrder, hother,
      hother.symm]
  · have hvalues : givenValues query .orderBy [(noun, value)] = [value] := by
      simp [givenValues, givenValue, h]
    rw [LoopState.setOrder_value, copiedTerms, hvalues, List.flatMap_singleton]
    rfl

theorem nounStep_accepted (hs : Standard s) (h : Accepted query (noun, value)) : ∃ t,
    nounStep lib query noun value s = .ok (.next t) ∧ Effect query [(noun, value)] s t := by
  rw [nounStep_eq_treat hs]
  unfold Accepted at h
  cases htreatment : treatment lib query noun with
  | condition column =>
      rw [htreatment] at h
      refine ⟨_, ?_, effect_condition htreatment noun (callerText column.toDbTableColumn value)⟩
      rw [treat, if_neg (by simp [h.1]), if_pos h.2]
  | clause clause =>
      rw [htreatment] at h
      cases clause with
      | orderBy => exact ⟨_, rfl, effect_sorting htreatment h⟩
      | limit => exact ⟨_, rfl, effect_value htreatment (by decide)⟩
      | offset => exact ⟨_, rfl, effect_value htreatment (by decide)⟩
      | groupBy => exact ⟨_, rfl, effect_value htreatment (by decide)⟩
  | unknown =>
      rw [htreatment] at h
      exact h.elim

end Step

theorem nounLoop_accepted {words : List CString} (hs : Standard s)
    (h : ∀ pair ∈ pairs words, Accepted query pair) : ∃ t,
    nounLoop lib query words s = .ok (0, t) ∧ Effect query (pairs words) s t := by
  induction words using pairs.induct generalizing s with
  | case1 noun value words ih =>
      obtain ⟨t, hstep, heffect⟩ := nounStep_accepted hs (h _ List.mem_cons_self)
      obtain ⟨u, hloop, hrest⟩ := ih (hs.next hstep)
        (fun pair hpair => h pair (List.mem_cons_of_mem _ hpair))
      refine ⟨u, ?_, heffect.trans hrest⟩
      rw [nounLoop, hstep]
      exact hloop
  | case2 words hwords =>
      refine ⟨_, nounLoop_of_unpaired hwords s, ?_⟩
      rw [pairs_of_unpaired hwords]
      exact ⟨(Effect.refl s).conditions, (Effect.refl s).words, rfl, rfl⟩

end Run

end ModMp.MusicIndexer
