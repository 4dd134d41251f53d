import ModMp.ErrorLog
import ModMp.MusicIndexerEffects
import ModMp.MusicIndexerPoints

/-!
# What the loop does with any pairs

Pairs behind which the loop goes on add the conditions that are admitted, leave the last limit and
the last offset, add the columns that are found in the lists to sort by, and report the others. At
the first other pair the call goes through the NULL pool, or returns.
-/

namespace ModMp.MusicIndexer
open CLib Segments

section Pairs
variable {lib : Library} (query : DbQuery lib.strnatcasecmp)

def addedCondition (pair : CString × CString) : Option QueryWhereCondition :=
  match treatment lib query pair.1 with
  | .condition column =>
      if Admitted column.toDbTableColumn pair.2 then
        some (whereEntry column.toDbTableColumn pair.2)
      else none
  | .clause _ | .unknown => none

def missingColumn (item : CString) : Option ErrorCall :=
  match query.findColumn (modifier item).2 with
  | some _ => none
  | none => some (unknownColumn (modifier item).2)

def addedErrors (pair : CString × CString) : List ErrorCall :=
  match treatment lib query pair.1 with
  | .condition column => if Admitted column.toDbTableColumn pair.2 then [] else [whereError]
  | .clause .orderBy => (sortItems pair.2).filterMap (missingColumn query)
  | .clause .limit | .clause .offset | .clause .groupBy => []
  | .unknown => [unsupportedWord pair.1]

/-- What the pairs have done between two states, with their errors. -/
structure Done (l : List (CString × CString)) (s t : LoopState) : Prop where
  conditions : t.parameters.whereConditions =
    s.parameters.whereConditions ++ l.filterMap (addedCondition query)
  words : ∀ clause, clause ≠ .orderBy → (t.parameters.sqlClauses clause).value =
    (givenValues query clause l).getLast?.or (s.parameters.sqlClauses clause).value
  order : (t.parameters.sqlClauses .orderBy).value =
    appendTerms (s.parameters.sqlClauses .orderBy).value (copiedTerms query l)
  errors : t.errorMessages = addErrors s.errorMessages (l.flatMap (addedErrors query))

end Pairs

section Run
variable {lib : Library} {query : DbQuery lib.strnatcasecmp} {s t u : LoopState}

theorem Done.refl (s : LoopState) : Done query [] s s :=
  ⟨(List.append_nil _).symm, fun _ _ => rfl, rfl, rfl⟩

theorem Done.trans {l l' : List (CString × CString)} (h : Done query l s t)
    (h' : Done query l' t u) : Done query (l ++ l') s u where
  conditions := by
    rw [h'.conditions, h.conditions, List.filterMap_append, List.append_assoc]
  words clause hclause := by
    rw [h'.words clause hclause, h.words clause hclause, givenValues, givenValues, givenValues,
      List.filterMap_append, List.getLast?_append, Option.or_assoc]
  order := by
    rw [h'.order, h.order, ← appendTerms_append, copiedTerms, copiedTerms, copiedTerms,
      ← List.flatMap_append, givenValues, givenValues, givenValues, List.filterMap_append]
  errors := by
    rw [h'.errors, h.errors, ← addErrors_append, List.flatMap_append]

theorem sortLoop_eq (s : LoopState) (items : List CString) : sortLoop lib query s items =
    s.setSorting (appendTerms (s.parameters.sqlClauses .orderBy).value
      (items.filterMap (sortTerm query)))
      (addErrors s.errorMessages (items.filterMap (missingColumn query))) := by
  induction items generalizing s with
  | nil =>
      exact (congrArg (fun t => { t with errorMessages := s.errorMessages }) s.setOrder_self).symm
  | cons item items ih =>
      rw [sortLoop, List.foldl_cons, ← sortLoop, ih]
      cases hcolumn : query.findColumn (modifier item).2 with
      | none =>
          have hterm : sortTerm query item = none := by rw [sortTerm, hcolumn, Option.map_none]
          have herror : missingColumn query item = some (unknownColumn (modifier item).2) := by
            rw [missingColumn, hcolumn]
          rw [sortStep_of_none hterm, List.filterMap_cons_none hterm,
            List.filterMap_cons_some herror]
          rfl
      | some column =>
          have hterm : sortTerm query item = some (columnText column (modifier item).1) := by
            rw [sortTerm, hcolumn, Option.map_some]
          have herror : missingColumn query item = none := by rw [missingColumn, hcolumn]
          rw [sortStep_of_term hterm, List.filterMap_cons_some hterm,
            List.filterMap_cons_none herror, LoopState.setOrder_value, LoopState.setSorting,
            LoopState.setOrder_setOrder]
          rfl

section Step
variable {noun value : CString}

theorem done_of_condition {column : ColumnTable}
    (h : treatment lib query noun = .condition column)
    (hadmitted : Admitted column.toDbTableColumn value) (noun' value' : CString) :
    Done query [(noun, value)] s
      ((s.addCondition column.toDbTableColumn value).addNouns noun' value') := by
  have heffect := @effect_condition lib query s noun value column h noun' value'
  refine ⟨?_, heffect.words, heffect.order, ?_⟩
  · simp [addedCondition, h, hadmitted, LoopState.addNouns, LoopState.addCondition]
  · simp [addedErrors, h, hadmitted, LoopState.addNouns, LoopState.addCondition, addErrors]

theorem done_of_error {call : ErrorCall} (hcondition : addedCondition query (noun, value) = none)
    (hvalue : ∀ clause, givenValue query clause (noun, value) = none)
    (herrors : addedErrors query (noun, value) = [call]) :
    Done query [(noun, value)] s ((s.addNouns noun value).addError call) := by
  have hvalues : ∀ clause, givenValues query clause [(noun, value)] = [] :=
    fun clause => List.filterMap_cons_none (hvalue clause)
  refine ⟨?_, fun clause _ => ?_, ?_, ?_⟩
  · rw [List.filterMap_cons_none hcondition]
    exact (List.append_nil _).symm
  · rw [hvalues]
    rfl
  · rw [copiedTerms, hvalues]
    rfl
  · rw [List.flatMap_singleton, herrors]
    rfl

theorem nounStep_proceeds (hs : Standard s) (h : proceeds query (noun, value) = true) :
    ∃ t, nounStep lib query noun value s = .ok (.next t) ∧ Done query [(noun, value)] s t := by
  rw [nounStep_eq_treat hs]
  cases htreatment : treatment lib query noun with
  | condition column =>
      have hconcat : concatenates column.toDbTableColumn value = false := by
        simpa [proceeds, htreatment] using h
      rw [treat, if_neg (by simp [hconcat])]
      by_cases hadmitted : Admitted column.toDbTableColumn value
      · rw [if_pos hadmitted]
        exact ⟨_, rfl, done_of_condition htreatment hadmitted _ _⟩
      · rw [if_neg hadmitted]
        refine ⟨_, rfl, done_of_error ?_ (fun clause => ?_) ?_⟩
        · simp [addedCondition, htreatment, hadmitted]
        · simp [givenValue, htreatment]
        · simp [addedErrors, htreatment, hadmitted]
  | clause clause =>
      by_cases hclause : clause = .orderBy
      · subst hclause
        refine ⟨_, rfl, ?_⟩
        have hvalues : givenValues query .orderBy [(noun, value)] = [value] := by
          simp [givenValues, givenValue, htreatment]
        rw [sortLoop_eq]
        refine ⟨?_, fun other hother => ?_, ?_, ?_⟩
        · simp [addedCondition, htreatment, LoopState.addNouns, LoopState.setSorting,
            LoopState.setOrder]
        · simp [givenValues, givenValue, htreatment, LoopState.addNouns, LoopState.setSorting,
            LoopState.setOrder, hother, hother.symm]
        · rw [LoopState.setSorting]
          change (((s.addNouns noun value).setOrder _).parameters.sqlClauses .orderBy).value = _
          rw [LoopState.setOrder_value, copiedTerms, hvalues, List.flatMap_singleton]
          rfl
        · rw [List.flatMap_singleton, addedErrors, htreatment]
          rfl
      · have heffect := @effect_value lib query s noun value clause htreatment hclause
        refine ⟨(s.addNouns noun value).setValue clause value, ?_, ?_, heffect.words,
          heffect.order, ?_⟩
        · cases clause <;> first | rfl | exact absurd rfl hclause
        · simp [addedCondition, htreatment, LoopState.addNouns, LoopState.setValue,
            DbQueryParameters.setValue]
        · cases clause <;>
            simp [addedErrors, htreatment, LoopState.addNouns, LoopState.setValue, addErrors]
              at hclause ⊢
  | unknown => simp [proceeds, htreatment] at h

end Step

theorem nounStep_unknown (hs : Standard s) {noun value : CString}
    (h : treatment lib query noun = .unknown) : ∃ t,
    nounStep lib query noun value s = .ok (.returned (-9) t) ∧ Done query [(noun, value)] s t := by
  rw [nounStep_eq_treat hs, h]
  refine ⟨_, rfl, done_of_error ?_ (fun clause => ?_) ?_⟩
  · simp [addedCondition, h]
  · simp [givenValue, h]
  · simp [addedErrors, h]

def NeedsPool (query : DbQuery lib.strnatcasecmp) (pair : CString × CString) : Prop :=
  ∃ column, treatment lib query pair.1 = .condition column ∧
    concatenates column.toDbTableColumn pair.2 = true

theorem nounStep_needsPool (hs : Standard s) {pair : CString × CString}
    (h : NeedsPool query pair) : nounStep lib query pair.1 pair.2 s = .error .nullPool := by
  obtain ⟨column, htreatment, hconcat⟩ := h
  rw [nounStep_eq_treat hs, htreatment, treat, if_pos hconcat]

theorem stops_cases {pair : CString × CString} (h : ¬ proceeds query pair = true) :
    treatment lib query pair.1 = .unknown ∨ NeedsPool query pair := by
  cases htreatment : treatment lib query pair.1 with
  | condition column => exact .inr ⟨column, htreatment, by simpa [proceeds, htreatment] using h⟩
  | clause clause => simp [proceeds, htreatment] at h
  | unknown => exact .inl rfl

/-- The loop reads all pairs, or it ends at the first one behind which it does not go on. -/
theorem nounLoop_outcome (hs : Standard s) (words : List CString) :
    (∀ pair ∈ pairs words, proceeds query pair = true) ∧
        (∃ t, nounLoop lib query words s = .ok (0, t) ∧ Done query (pairs words) s t) ∨
      ∃ before pair after, pairs words = before ++ pair :: after ∧
        (∀ other ∈ before, proceeds query other = true) ∧
        (treatment lib query pair.1 = .unknown ∧ (∃ t,
            nounLoop lib query words s = .ok (-9, t) ∧ Done query (before ++ [pair]) s t) ∨
          NeedsPool query pair ∧ nounLoop lib query words s = .error .nullPool) := by
  induction words using pairs.induct generalizing s with
  | case1 noun value words ih =>
      rw [nounLoop, pairs]
      by_cases hproceeds : proceeds query (noun, value) = true
      · obtain ⟨t, hstep, hdone⟩ := nounStep_proceeds hs hproceeds
        rw [hstep]
        rcases ih (hs.next hstep) with ⟨hall, u, hloop, hrest⟩ |
          ⟨before, pair, after, hwords, hall, hend⟩
        · exact .inl ⟨List.forall_mem_cons.mpr ⟨hproceeds, hall⟩, u, hloop, hdone.trans hrest⟩
        · refine .inr ⟨(noun, value) :: before, pair, after, ?_,
            List.forall_mem_cons.mpr ⟨hproceeds, hall⟩, ?_⟩
          · rw [hwords, List.cons_append]
          · refine hend.imp (fun hstop => ?_) id
            obtain ⟨hunknown, u, hloop, hrest⟩ := hstop
            exact ⟨hunknown, u, hloop, hdone.trans hrest⟩
      · refine .inr ⟨[], (noun, value), pairs words, rfl, List.forall_mem_nil _, ?_⟩
        rcases stops_cases hproceeds with hunknown | hneeds
        · obtain ⟨t, hstep, hdone⟩ := nounStep_unknown hs hunknown
          rw [hstep]
          exact .inl ⟨hunknown, _, rfl, ⟨hdone.conditions, hdone.words, hdone.order, hdone.errors⟩⟩
        · rw [nounStep_needsPool hs hneeds]
          exact .inr ⟨hneeds, rfl⟩
  | case2 words hwords =>
      rw [pairs_of_unpaired hwords, nounLoop_of_unpaired hwords]
      have hdone : Done query [] s s := .refl s
      exact .inl ⟨List.forall_mem_nil _, _, rfl,
        ⟨hdone.conditions, hdone.words, hdone.order, hdone.errors⟩⟩

end Run

section Call
variable {lib : Library}

/-- What a call leaves that has taken these pairs. -/
structure MusicQuery.Read (query : DbQuery lib.strnatcasecmp) (l : List (CString × CString))
    (q q' : MusicQuery lib) : Prop where
  dbQuery : q'.dbQuery = some query
  parameters : ∃ p, q'.dbQueryParameters = some p ∧
    p.whereConditions = l.filterMap (addedCondition query) ∧
    (∀ clause, clause ≠ .orderBy →
      (p.sqlClauses clause).value = (givenValues query clause l).getLast?) ∧
    (p.sqlClauses .orderBy).value = listText (copiedTerms query l)
  errors : q'.errorMessages = addErrors q.errorMessages (l.flatMap (addedErrors query))

variable {q : MusicQuery lib} {query : DbQuery lib.strnatcasecmp}

theorem getMusicQuery_of_loop (hknown : q.known = some query) (hlength : 4 ≤ q.queryNouns.length)
    {l : List (CString × CString)} {status : ℤ} {t : LoopState}
    (hloop : nounLoop lib query (q.queryNouns.drop 2) q.loopStart = .ok (status, t))
    (hdone : Done query l q.loopStart t) :
    ∃ q', getMusicQuery q = .ok (status, q') ∧ q.Read query l q' := by
  obtain ⟨type, hcall⟩ := getMusicQuery_of_known hknown
  rw [hcall, if_neg (not_lt.mpr hlength), hloop]
  refine ⟨_, rfl, rfl, ⟨_, rfl, hdone.conditions, fun clause hclause => ?_, ?_⟩, hdone.errors⟩
  · rw [hdone.words clause hclause]
    exact Option.or_none
  · rw [hdone.order]
    exact appendTerms_listText [] _

theorem getMusicQuery_of_fault (hknown : q.known = some query) (hlength : 4 ≤ q.queryNouns.length)
    {fault : QueryFault}
    (hloop : nounLoop lib query (q.queryNouns.drop 2) q.loopStart = .error fault) :
    getMusicQuery q = .error fault := by
  obtain ⟨type, hcall⟩ := getMusicQuery_of_known hknown
  rw [hcall, if_neg (not_lt.mpr hlength), hloop]
  rfl

/-- When all keys are known, all pairs are taken, or a value needs the pool. -/
theorem getMusicQuery_of_keys (hknown : q.known = some query) (hlength : 4 ≤ q.queryNouns.length)
    (hkeys : ∀ pair ∈ pairs (q.queryNouns.drop 2), treatment lib query pair.1 ≠ .unknown) :
    ((¬ ∀ pair ∈ pairs (q.queryNouns.drop 2), proceeds query pair = true) →
        getMusicQuery q = .error .nullPool) ∧
      ((∀ pair ∈ pairs (q.queryNouns.drop 2), proceeds query pair = true) →
        ∃ q', getMusicQuery q = .ok (0, q') ∧
          q.Read query (pairs (q.queryNouns.drop 2)) q') := by
  have hstart : Standard q.loopStart := .init _ _
  rcases nounLoop_outcome hstart (q.queryNouns.drop 2) with ⟨hall, t, hloop, hdone⟩ |
    ⟨before, pair, after, hwords, -, hend⟩
  · exact ⟨fun h => absurd hall h, fun _ => getMusicQuery_of_loop hknown hlength hloop hdone⟩
  · have hmem : pair ∈ pairs (q.queryNouns.drop 2) := by
      rw [hwords]
      exact List.mem_append_right _ List.mem_cons_self
    rcases hend with ⟨hunknown, -⟩ | ⟨⟨column, htreatment, hconcat⟩, hloop⟩
    · exact absurd hunknown (hkeys pair hmem)
    · refine ⟨fun _ => getMusicQuery_of_fault hknown hlength hloop, fun hall => ?_⟩
      have hproceeds := hall pair hmem
      simp [proceeds, htreatment, hconcat] at hproceeds

/-- What the server makes of any request for a known type: it takes the pairs up to the first one
with an unknown key, which it reports, or it goes through the NULL pool. -/
theorem request_outcome (hknown : q.known = some query) (hlength : 4 ≤ q.queryNouns.length) :
    (∀ pair ∈ pairs (q.queryNouns.drop 2), proceeds query pair = true) ∧
        (∃ q', getMusicQuery q = .ok (0, q') ∧
          q.Read query (pairs (q.queryNouns.drop 2)) q') ∨
      ∃ before pair after, pairs (q.queryNouns.drop 2) = before ++ pair :: after ∧
        (∀ other ∈ before, proceeds query other = true) ∧
        (treatment lib query pair.1 = .unknown ∧ (∃ q', getMusicQuery q = .ok (-9, q') ∧
            q.Read query (before ++ [pair]) q') ∨
          NeedsPool query pair ∧ getMusicQuery q = .error .nullPool) := by
  have hstart : Standard q.loopStart := .init _ _
  rcases nounLoop_outcome hstart (q.queryNouns.drop 2) with ⟨hall, t, hloop, hdone⟩ |
    ⟨before, pair, after, hwords, hall, hend⟩
  · exact .inl ⟨hall, getMusicQuery_of_loop hknown hlength hloop hdone⟩
  · refine .inr ⟨before, pair, after, hwords, hall, hend.imp ?_ ?_⟩
    · rintro ⟨hunknown, t, hloop, hdone⟩
      exact ⟨hunknown, getMusicQuery_of_loop hknown hlength hloop hdone⟩
    · rintro ⟨hneeds, hloop⟩
      exact ⟨hneeds, getMusicQuery_of_fault hknown hlength hloop⟩

end Call

/-- A limit, a length that is no number, a sort list with a missing name, and an unknown word. -/
def colourRequest : MusicQuery songsLibrary :=
  songsRequest ["db", "songs", "limit", "5", "length", "long", "sort_by", "+song_title,artist",
    "colour", "red"]

theorem request_outcome_colour : ∃ before pair q', getMusicQuery colourRequest = .ok (-9, q') ∧
    colourRequest.Read songsQuery (before ++ [pair]) q' := by
  have hcases : ∀ pair ∈ pairs (colourRequest.queryNouns.drop 2),
      @proceeds songsLibrary songsQuery pair = true ∨ pair.1 = CString.ofAscii "colour" := by
    decide +kernel
  have hcolour : treatment songsLibrary songsQuery (CString.ofAscii "colour") = .unknown := rfl
  rcases @request_outcome songsLibrary colourRequest songsQuery rfl (by decide) with
    ⟨hall, -⟩ | ⟨before, pair, after, hwords, -, ⟨-, q', hcall, hread⟩ | ⟨hneeds, -⟩⟩
  · have hmem : (CString.ofAscii "colour", CString.ofAscii "red") ∈
        pairs (colourRequest.queryNouns.drop 2) := by decide +kernel
    exact absurd (hall _ hmem) (by decide +kernel)
  · exact ⟨before, pair, q', hcall, hread⟩
  · obtain ⟨column, htreatment, hconcat⟩ := hneeds
    have hmem : pair ∈ pairs (colourRequest.queryNouns.drop 2) := by
      rw [hwords]
      exact List.mem_append_right _ List.mem_cons_self
    rcases hcases pair hmem with hproceeds | hkey
    · simp [proceeds, htreatment, hconcat] at hproceeds
    · rw [hkey, hcolour] at htreatment
      cases htreatment

end ModMp.MusicIndexer
