import ModMp.MusicIndexerSorting

/-!
# One pair of words

A key names a column, or else a clause, or nothing. The names of the clauses and the missing pool of
the parameters never change in the loop, so what an iteration does to a pair depends only on the
pair: a column takes a condition, a clause takes a value, and an unknown key ends the loop.
-/

namespace ModMp.MusicIndexer
open CLib

/-- What the loop never changes. -/
structure Standard (s : LoopState) : Prop where
  noPool : s.parameters.hasPool = false
  names : ∀ clause, (s.parameters.sqlClauses clause).freindlyName = clauseName clause

theorem Standard.init (errorMessages : ErrorMessages) (queryNouns : List CString) :
    Standard ⟨dbQueryParametersInit, errorMessages, queryNouns⟩ := ⟨rfl, fun _ => rfl⟩

namespace LoopState

variable (s : LoopState)

def addNouns (noun value : CString) : LoopState :=
  { s with queryNouns := s.queryNouns ++ [noun, value] }

def addCondition (column : DbTableColumn) (value : CString) : LoopState :=
  { s with parameters := { s.parameters with
    whereConditions := s.parameters.whereConditions ++ [whereEntry column value] } }

end LoopState

namespace Standard
variable {s : LoopState}

theorem setValue (h : Standard s) (clause : SqlClause) (value : CString) :
    Standard (s.setValue clause value) := by
  refine ⟨h.noPool, fun other => ?_⟩
  by_cases hother : other = clause
  · subst hother
    simpa [LoopState.setValue, DbQueryParameters.setValue] using h.names other
  · simpa [LoopState.setValue, DbQueryParameters.setValue, hother] using h.names other

theorem setSorting (h : Standard s) (value : Option CString) (errorMessages : ErrorMessages) :
    Standard (s.setSorting value errorMessages) := by
  refine ⟨h.noPool, fun other => ?_⟩
  by_cases hother : other = .orderBy
  · subst hother
    simpa [LoopState.setSorting, LoopState.setOrder] using h.names .orderBy
  · simpa [LoopState.setSorting, LoopState.setOrder, hother] using h.names other

end Standard

inductive Treatment
  | condition (column : ColumnTable)
  | clause (clause : SqlClause)
  | unknown

section Pairs
variable (lib : Library) (query : DbQuery lib.strnatcasecmp)

/-- The clause with this name, by the names set at the start. -/
def namedClause (noun : CString) : Option SqlClause :=
  findClause lib dbQueryParametersInit.sqlClauses noun

def treatment (noun : CString) : Treatment :=
  match query.findColumn noun with
  | some column => .condition column
  | none =>
      match namedClause lib noun with
      | some clause => .clause clause
      | none => .unknown

/-- What is done to a pair with this treatment. -/
def treat (noun value : CString) (s : LoopState) : Treatment → Except QueryFault Outcome
  | .condition column =>
      if concatenates column.toDbTableColumn value then .error .nullPool
      else if Admitted column.toDbTableColumn value then
        .ok (.next ((s.addCondition column.toDbTableColumn value).addNouns noun
          (callerText column.toDbTableColumn value)))
      else .ok (.next ((s.addNouns noun value).addError whereError))
  | .clause .orderBy =>
      .ok (.next (sortLoop lib query (s.addNouns noun value) (sortItems value)))
  | .clause clause => .ok (.next ((s.addNouns noun value).setValue clause value))
  | .unknown => .ok (.returned (-9) ((s.addNouns noun value).addError (unsupportedWord noun)))

end Pairs

section Step
variable {lib : Library} {query : DbQuery lib.strnatcasecmp} {noun value : CString}
  {s : LoopState}

theorem findClause_eq (hs : Standard s) (noun : CString) :
    findClause lib s.parameters.sqlClauses noun = namedClause lib noun := by
  simp only [findClause, namedClause, hs.names, dbQueryParametersInit]

theorem namedClause_ne_groupBy : namedClause lib noun ≠ some .groupBy := by
  intro h
  have hname := List.find?_some h
  exact absurd hname Bool.false_ne_true

theorem treatment_ne_groupBy : treatment lib query noun ≠ .clause .groupBy := by
  unfold treatment
  cases query.findColumn noun with
  | some column => exact Treatment.noConfusion
  | none =>
      cases hclause : namedClause lib noun with
      | none => exact Treatment.noConfusion
      | some clause =>
          rintro h
          cases h
          exact namedClause_ne_groupBy hclause

theorem nounStep_sort (hnoun : query.findColumn noun = none)
    (hclause : findClause lib s.parameters.sqlClauses noun = some .orderBy) :
    nounStep lib query noun value s =
      .ok (.next (sortLoop lib query (s.addNouns noun value) (sortItems value))) := by
  unfold nounStep
  rw [hnoun]
  dsimp only
  rw [hclause]
  rfl

theorem addWhere_eq (hs : Standard s) (column : DbTableColumn) (value : CString) :
    s.parameters.addWhere column value =
      if concatenates column value then .error .nullPool
      else if Admitted column value then
        .ok (0, (s.addCondition column value).parameters, callerText column value)
      else .ok (-1, s.parameters, value) := by
  have hpool : (concatenates column value && !s.parameters.hasPool) =
      concatenates column value := by
    rw [hs.noPool, Bool.not_false, Bool.and_true]
  unfold DbQueryParameters.addWhere
  rw [hpool, dbQueryParameterAddWhere_eq]
  by_cases hconcat : concatenates column value = true
  · rw [if_pos hconcat, if_pos hconcat]
  · rw [if_neg hconcat, if_neg hconcat]
    by_cases hadmitted : Admitted column value
    · rw [if_pos hadmitted, if_pos hadmitted]
      rfl
    · rw [if_neg hadmitted, if_neg hadmitted]

theorem nounStep_eq_treat (hs : Standard s) (noun value : CString) :
    nounStep lib query noun value s = treat lib query noun value s (treatment lib query noun) := by
  unfold nounStep treatment
  cases hcolumn : query.findColumn noun with
  | some column =>
      dsimp only
      rw [addWhere_eq hs, treat]
      by_cases hconcat : concatenates column.toDbTableColumn value = true
      · rw [if_pos hconcat, if_pos hconcat]
        rfl
      · rw [if_neg hconcat, if_neg hconcat]
        by_cases hadmitted : Admitted column.toDbTableColumn value
        · rw [if_pos hadmitted, if_pos hadmitted]
          rfl
        · rw [if_neg hadmitted, if_neg hadmitted]
          rfl
  | none =>
      dsimp only
      rw [findClause_eq hs]
      cases hclause : namedClause lib noun with
      | none => rfl
      | some clause => cases clause <;> rfl

theorem nounStep_next_cases (hs : Standard s) {t : LoopState}
    (h : nounStep lib query noun value s = .ok (.next t)) :
    (∃ column, treatment lib query noun = .condition column ∧
        concatenates column.toDbTableColumn value = false ∧
        Admitted column.toDbTableColumn value ∧
        t = (s.addCondition column.toDbTableColumn value).addNouns noun
          (callerText column.toDbTableColumn value)) ∨
      (∃ column, treatment lib query noun = .condition column ∧
        concatenates column.toDbTableColumn value = false ∧
        ¬ Admitted column.toDbTableColumn value ∧
        t = (s.addNouns noun value).addError whereError) ∨
      (∃ clause, treatment lib query noun = .clause clause ∧ clause ≠ .orderBy ∧
        t = (s.addNouns noun value).setValue clause value) ∨
      treatment lib query noun = .clause .orderBy ∧
        t = sortLoop lib query (s.addNouns noun value) (sortItems value) := by
  rw [nounStep_eq_treat hs] at h
  cases htreatment : treatment lib query noun with
  | condition column =>
      rw [htreatment, treat] at h
      split_ifs at h with hconcat hadmitted
      · cases h
        exact .inl ⟨column, rfl, by simpa using hconcat, hadmitted, rfl⟩
      · cases h
        exact .inr (.inl ⟨column, rfl, by simpa using hconcat, hadmitted, rfl⟩)
  | clause clause =>
      rw [htreatment] at h
      cases clause with
      | orderBy =>
          cases h
          exact .inr (.inr (.inr ⟨rfl, rfl⟩))
      | limit => cases h; exact .inr (.inr (.inl ⟨.limit, rfl, by decide, rfl⟩))
      | offset => cases h; exact .inr (.inr (.inl ⟨.offset, rfl, by decide, rfl⟩))
      | groupBy => cases h; exact .inr (.inr (.inl ⟨.groupBy, rfl, by decide, rfl⟩))
  | unknown =>
      rw [htreatment] at h
      cases h

theorem Standard.next (hs : Standard s) {t : LoopState}
    (h : nounStep lib query noun value s = .ok (.next t)) : Standard t := by
  have hnouns : Standard (s.addNouns noun value) := ⟨hs.noPool, hs.names⟩
  rcases nounStep_next_cases hs h with ⟨column, -, -, -, rfl⟩ | ⟨column, -, -, -, rfl⟩ |
    ⟨clause, -, -, rfl⟩ | ⟨-, rfl⟩
  · exact ⟨hs.noPool, hs.names⟩
  · exact ⟨hs.noPool, hs.names⟩
  · exact hnouns.setValue _ _
  · obtain ⟨order, errorMessages, hloop⟩ :=
      sortLoop_shape query (s.addNouns noun value) (sortItems value)
    rw [hloop]
    exact hnouns.setSorting _ _

theorem nounLoop_of_unpaired {words : List CString}
    (h : ∀ noun value rest, words = noun :: value :: rest → False) (s : LoopState) :
    nounLoop lib query words s = .ok (0, { s with queryNouns := s.queryNouns ++ words }) := by
  rw [nounLoop]
  · rfl
  · exact h

theorem nounLoop_cons {words : List CString} {status : ℤ} {t : LoopState}
    (h : nounLoop lib query (noun :: value :: words) s = .ok (status, t)) :
    (∃ s', nounStep lib query noun value s = .ok (.next s') ∧
      nounLoop lib query words s' = .ok (status, t)) ∨
    ∃ s', nounStep lib query noun value s = .ok (.returned status s') ∧
      t = { s' with queryNouns := s'.queryNouns ++ words } := by
  rw [nounLoop] at h
  obtain ⟨outcome, hstep, h⟩ := exists_of_bind_eq_ok h
  cases outcome with
  | next s' => exact .inl ⟨s', hstep, h⟩
  | returned status' s' =>
      cases h
      exact .inr ⟨s', hstep, rfl⟩

theorem nounStep_returned (hs : Standard s) {t : LoopState} {status : ℤ}
    (h : nounStep lib query noun value s = .ok (.returned status t)) :
    status = -9 ∧ t = (s.addNouns noun value).addError (unsupportedWord noun) := by
  rw [nounStep_eq_treat hs] at h
  cases htreatment : treatment lib query noun with
  | condition column =>
      rw [htreatment, treat] at h
      split_ifs at h
      · cases h
      · cases h
  | clause clause =>
      rw [htreatment] at h
      cases clause <;> cases h
  | unknown =>
      rw [htreatment] at h
      cases h
      exact ⟨rfl, rfl⟩

end Step

section Call
variable {lib : Library}

/-- The database query of a known type word. -/
def MusicQuery.known (q : MusicQuery lib) : Option (DbQuery lib.strnatcasecmp) :=
  q.queryNouns[1]?.bind (fun typeWord =>
    (findType lib typeWord).bind (fun _ => lib.findQueryById typeWord))

/-- The state in which the loop starts. -/
def MusicQuery.loopStart (q : MusicQuery lib) : LoopState :=
  ⟨dbQueryParametersInit, q.errorMessages, q.queryNouns.take 2⟩

theorem getMusicQuery_of_known {q : MusicQuery lib} {query : DbQuery lib.strnatcasecmp}
    (h : q.known = some query) : ∃ type, getMusicQuery q =
      if q.queryNouns.length < 4 then .ok (0, { q with type := type, dbQuery := some query })
      else (nounLoop lib query (q.queryNouns.drop 2) q.loopStart).map (fun r =>
        (r.1, { type := type, dbQuery := some query, dbQueryParameters := some r.2.parameters,
                errorMessages := r.2.errorMessages, queryNouns := r.2.queryNouns })) := by
  obtain ⟨typeWord, hword, htype⟩ := Option.bind_eq_some_iff.mp h
  obtain ⟨type, htype, hquery⟩ := Option.bind_eq_some_iff.mp htype
  refine ⟨type, ?_⟩
  unfold getMusicQuery
  rw [hword]
  dsimp only
  rw [htype]
  dsimp only
  rw [hquery]
  dsimp only
  split_ifs
  · rfl
  · unfold MusicQuery.loopStart
    cases nounLoop lib query (q.queryNouns.drop 2)
      ⟨dbQueryParametersInit, q.errorMessages, q.queryNouns.take 2⟩ <;> rfl

end Call

end ModMp.MusicIndexer
