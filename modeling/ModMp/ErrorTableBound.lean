import ModMp.ErrorRecords

/-!
# The bound of the shared error table

The bound check and the increment are two accesses. The table stays in bounds while every check
that passes counts the callers that are past theirs and have not incremented. A check that does not
can be continued to an overflow, and with 1025 callers the empty table has such a run.
-/

namespace ModMp
open CLib Runs Tickets

section Finite
variable {ι : Type} [DecidableEq ι] [Fintype ι] {calls : ι → ErrorCall} {s : SharedTable ι}

/-- The callers that have passed the bound check and not yet incremented. -/
def SharedTable.pending (s : SharedTable ι) : Finset ι :=
  Finset.univ.filter (fun i => s.stage i = .checked)

/-- A check by `i` that passes here counts the callers that are already past theirs. -/
def CheckInTime (s : SharedTable ι) (i : ι) : Prop :=
  s.stage i = .entered → ¬ s.table.Full → s.table.numErrors + s.pending.card < maxErrors

instance (s : SharedTable ι) (i : ι) : Decidable (CheckInTime s i) :=
  inferInstanceAs (Decidable (_ → _ → _))

theorem pending_set_checked (s : SharedTable ι) (i : ι) (table : ErrorMessages) :
    (s.set i .checked table).pending = insert i s.pending := by
  ext j
  by_cases hj : j = i
  · simp [SharedTable.pending, hj]
  · simp [SharedTable.pending, SharedTable.set_stage_of_ne _ _ _ hj, hj]

theorem pending_set_of_ne (s : SharedTable ι) (i : ι) {stage : CallStage} (table : ErrorMessages)
    (h : stage ≠ .checked) : (s.set i stage table).pending = s.pending.erase i := by
  ext j
  by_cases hj : j = i
  · simp [SharedTable.pending, hj, h]
  · simp [SharedTable.pending, SharedTable.set_stage_of_ne _ _ _ hj, hj]

/-- The records in use and the callers about to add one fit into the table. -/
theorem numErrors_add_pending_step {i : ι} {s' : SharedTable ι}
    (hbound : s.table.numErrors + s.pending.card ≤ maxErrors) (htime : CheckInTime s i)
    (ha : Fires (accessBy calls) s i s') :
    s'.table.numErrors + s'.pending.card ≤ maxErrors := by
  obtain ⟨stage, table, hnext, rfl⟩ := accessBy_cases ha
  have hother : ∀ stage table, stage ≠ .checked → table.numErrors = s.table.numErrors →
      (s.set i stage table).table.numErrors + (s.set i stage table).pending.card ≤ maxErrors := by
    intro stage table hstage hnum
    have herase : (s.pending.erase i).card ≤ s.pending.card := Finset.card_erase_le
    rw [pending_set_of_ne s i _ hstage, SharedTable.set_table, hnum]
    omega
  cases hstage : s.stage i with
  | entered =>
      rw [hstage, nextAccess] at hnext
      split_ifs at hnext with hfull
      · cases hnext
        exact hother _ _ (by decide) rfl
      · cases hnext
        have hlt := htime hstage hfull
        have hinsert := Finset.card_insert_le i s.pending
        rw [pending_set_checked, SharedTable.set_table]
        omega
  | checked =>
      rw [hstage] at hnext
      cases hnext
      have hmem : i ∈ s.pending := Finset.mem_filter.mpr ⟨Finset.mem_univ i, hstage⟩
      have hcard := Finset.card_erase_add_one hmem
      rw [pending_set_of_ne s i _ (by simp), SharedTable.set_table]
      change s.table.numErrors + 1 + _ ≤ _
      omega
  | incremented e =>
      rw [hstage] at hnext
      cases hnext
      exact hother _ _ (by simp) rfl
  | wroteType e =>
      rw [hstage] at hnext
      cases hnext
      exact hother _ _ (by simp) rfl
  | wroteHeader e =>
      rw [hstage] at hnext
      cases hnext
      exact hother _ _ (by simp) rfl
  | succeeded e =>
      rw [hstage] at hnext
      cases hnext
  | refused =>
      rw [hstage] at hnext
      cases hnext

/-- The table stays in bounds in every run from an empty table whose bound checks count the callers
that are past theirs. -/
theorem in_bounds_of_checks_in_time {l : List ι} {t : ErrorMessages} (hempty : t.numErrors = 0)
    (h : Run (fun s i s' => CheckInTime s i ∧ Fires (accessBy calls) s i s') (.initial ι t) l s) :
    s.table.numErrors ≤ maxErrors ∧
      ∀ i e, (s.stage i).errorNum = some e → e < maxErrors := by
  have hstart : (SharedTable.initial ι t).pending = ∅ := by
    simp [SharedTable.pending, SharedTable.initial]
  have hbound : s.table.numErrors + s.pending.card ≤ maxErrors := by
    apply h.invariant (I := fun s => s.table.numErrors + s.pending.card ≤ maxErrors)
    · rw [hstart, Finset.card_empty, SharedTable.initial, hempty]
      exact Nat.zero_le _
    · exact fun s i s' hb ha => numErrors_add_pending_step hb ha.1 ha.2
  have hle : s.table.numErrors ≤ maxErrors := le_of_add_le_left hbound
  obtain ⟨T, hT, hticket⟩ := (Consistent.run (h.mono fun _ _ _ ha => ha.2)).tickets
  refine ⟨hle, fun i e he => ?_⟩
  have hlt := T.ticket_lt ((hticket i).trans he)
  omega

/-- Two callers that are both past the check before the first increment, within bounds. -/
theorem in_bounds_twoCalls : ∃ s : SharedTable (Fin 2),
    s.stage 0 = .incremented 1 ∧ s.table.numErrors ≤ maxErrors ∧
      ∀ i e, (s.stage i).errorNum = some e → e < maxErrors := by
  have hrun : ∃ s, Run (fun s i s' => CheckInTime s i ∧ Fires (accessBy twoCalls) s i s')
      (.initial (Fin 2) noRecords) [0, 1, 1, 0] s ∧ s.stage 0 = .incremented 1 :=
    ⟨_, run_of_execute_guarded rfl, by decide⟩
  obtain ⟨s, hs, hstage⟩ := hrun
  exact ⟨s, hstage, in_bounds_of_checks_in_time rfl hs⟩

theorem exists_run_increments (calls : ι → ErrorCall) (s : SharedTable ι) : ∃ l s',
    Run (Fires (accessBy calls)) s l s' ∧
      s'.table.numErrors = s.table.numErrors + s.pending.card := by
  induction hn : s.pending.card generalizing s with
  | zero => exact ⟨[], s, .nil, rfl⟩
  | succ n ih =>
      obtain ⟨i, hi⟩ := Finset.card_pos.mp (show 0 < s.pending.card by omega)
      have hstage : s.stage i = .checked := (Finset.mem_filter.mp hi).2
      have hstep : Fires (accessBy calls) s i
          (s.set i (.incremented s.table.fetchAndAdd.1) s.table.fetchAndAdd.2) := by
        rw [Fires, accessBy, hstage]
        rfl
      have hcard : (s.set i (.incremented s.table.fetchAndAdd.1)
          s.table.fetchAndAdd.2).pending.card = n := by
        rw [pending_set_of_ne s i _ (by simp), Finset.card_erase_of_mem hi, hn, Nat.add_sub_cancel]
      obtain ⟨l, s', hrun, hnum⟩ := ih _ hcard
      refine ⟨_, s', (Run.single hstep).trans hrun, hnum.trans ?_⟩
      change s.table.numErrors + 1 + n = _
      omega

/-- A passing check that does not count the callers ahead of it can lead out of the table. -/
theorem exists_overflow_of_late_check {i : ι} (hlate : ¬ CheckInTime s i) : ∃ l s',
    Run (Fires (accessBy calls)) s l s' ∧ maxErrors < s'.table.numErrors := by
  simp only [CheckInTime, Classical.not_imp, not_lt] at hlate
  obtain ⟨hstage, hfull, hle⟩ := hlate
  have hstep : Fires (accessBy calls) s i (s.set i .checked s.table) := by
    rw [Fires, accessBy, hstage, nextAccess, if_neg hfull]
    rfl
  obtain ⟨l, s', hrun, hnum⟩ := exists_run_increments calls (s.set i .checked s.table)
  refine ⟨_, s', (Run.single hstep).trans hrun, ?_⟩
  have hnotMem : i ∉ s.pending := by
    intro hi
    rw [SharedTable.pending, Finset.mem_filter, hstage] at hi
    cases hi.2
  rw [hnum, pending_set_checked, Finset.card_insert_of_notMem hnotMem, SharedTable.set_table]
  omega

/-- Any set of callers may pass the check of a table that is not full before one increments. -/
theorem exists_run_checks (calls : ι → ErrorCall) {t : ErrorMessages} (ht : ¬ t.Full)
    (c : Finset ι) : ∃ l s,
    Run (Fires (accessBy calls)) (.initial ι t) l s ∧ s.table = t ∧ s.pending = c ∧
      ∀ i ∉ c, s.stage i = .entered := by
  induction c using Finset.induction_on with
  | empty => exact ⟨[], .initial ι t, .nil, rfl, by simp [SharedTable.pending, SharedTable.initial],
      fun _ _ => rfl⟩
  | insert i c hi ih =>
      obtain ⟨l, s, hrun, htable, hpending, hentered⟩ := ih
      have hstep : Fires (accessBy calls) s i (s.set i .checked s.table) := by
        rw [Fires, accessBy, hentered i hi, nextAccess, htable, if_neg ht]
        rfl
      refine ⟨_, _, hrun.snoc hstep, htable, ?_, fun j hj => ?_⟩
      · rw [pending_set_checked, hpending]
      · obtain ⟨hji, hjc⟩ := not_or.mp (mt Finset.mem_insert.mpr hj)
        rw [SharedTable.set_stage_of_ne _ _ _ hji]
        exact hentered j hjc

end Finite

def sameCalls (_ : Fin 1025) : ErrorCall where
  type := .error
  header := CString.ofAscii "Database Query"
  message := CString.ofAscii "Failed to get connection"

/-- With 1025 callers all may pass the check of the empty table before the first increment. -/
theorem overflow_of_1025_callers : ∃ l s,
    Run (Fires (accessBy sameCalls)) (.initial (Fin 1025) noRecords) l s ∧
      ¬ s.table.numErrors ≤ maxErrors := by
  obtain ⟨l, s, hrun, htable, hpending, -⟩ :=
    exists_run_checks sameCalls (show ¬ noRecords.Full by decide) Finset.univ
  obtain ⟨l', s', hrun', hnum⟩ := exists_run_increments sameCalls s
  refine ⟨l ++ l', s', hrun.trans hrun', ?_⟩
  rw [hnum, htable, hpending, Finset.card_univ, Fintype.card_fin]
  decide

end ModMp
