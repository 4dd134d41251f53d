import ModMp.SharedErrorTable

/-!
# Records of concurrent calls

With a free slot for every caller no call is refused, and when all have returned each has its whole
record in a slot of its own: nothing is mixed, lost or overwritten.
-/

namespace ModMp
open CLib Runs Tickets

variable {ι : Type} [DecidableEq ι] [Fintype ι] {calls : ι → ErrorCall} {s : SharedTable ι}

theorem ne_refused_of_run {l : List ι} {t : ErrorMessages}
    (hroom : t.numErrors + Fintype.card ι ≤ maxErrors)
    (h : Run (Fires (accessBy calls)) (.initial ι t) l s) (i : ι) : s.stage i ≠ .refused := by
  induction h generalizing i with
  | nil => simp [SharedTable.initial]
  | @snoc l s s' j hrun ha ih =>
      obtain ⟨stage, table, hnext, rfl⟩ := accessBy_cases ha
      by_cases hij : i = j
      · subst hij
        rw [SharedTable.set_stage_self]
        rintro rfl
        cases hstage : s.stage i with
        | entered =>
            obtain ⟨T, hT, hticket⟩ := (Consistent.run hrun).tickets
            have hfree : T.ticket i = none := by rw [hticket, hstage]; rfl
            have hlt := T.next_lt_of_free hfree
            rw [hstage, nextAccess, if_neg] at hnext
            · cases hnext
            · unfold ErrorMessages.Full
              omega
        | _ =>
            rw [hstage] at hnext
            cases hnext
      · rw [SharedTable.set_stage_of_ne _ _ _ hij]
        exact ih i

/-- When every call has returned on a table with room for all, each has succeeded and has its
whole record in a slot of its own, and the records from before are unchanged. -/
theorem all_records_kept {l : List ι} {t : ErrorMessages}
    (hroom : t.numErrors + Fintype.card ι ≤ maxErrors)
    (h : Run (Fires (accessBy calls)) (.initial ι t) l s)
    (hdone : ∀ i, (s.stage i).status ≠ none) :
    (∀ i, (s.stage i).status = some 0) ∧
      s.table.numErrors = t.numErrors + Fintype.card ι ∧
      (∀ j < t.numErrors, s.table.messages j = t.messages j) ∧
      ∃ slot : ι → ℕ,
        Set.BijOn slot Set.univ (Set.Ico t.numErrors (t.numErrors + Fintype.card ι)) ∧
        ∀ i, s.table.messages (slot i) = (calls i).record := by
  have hsucceeded : ∀ i, ∃ e, s.stage i = .succeeded e := by
    intro i
    have hrefused := ne_refused_of_run hroom h i
    have hstatus := hdone i
    cases hstage : s.stage i with
    | succeeded e => exact ⟨e, rfl⟩
    | refused => exact absurd hstage hrefused
    | _ =>
        rw [hstage] at hstatus
        exact absurd rfl hstatus
  choose slot hslot using hsucceeded
  have hc := Consistent.run h
  obtain ⟨T, hT, hticket⟩ := hc.tickets
  have hslot' : ∀ i, T.ticket i = some (slot i) := by
    intro i
    rw [hticket, hslot i]
    rfl
  have hnext := T.next_eq_of_forall (fun i => ⟨slot i, hslot' i⟩)
  refine ⟨fun i => by rw [hslot i]; rfl, hT.symm.trans hnext, hc.kept, slot, ?_, fun i => ?_⟩
  · rw [← hnext]
    exact T.bijOn hslot'
  · have hw := hc.written i (slot i) (by rw [hslot i]; rfl)
    rw [hslot i] at hw
    exact hw

def oneRecord : ErrorMessages where
  numErrors := 1
  messages _ := ErrorCall.record ⟨.debug, CString.ofAscii "Startup", CString.ofAscii "ready"⟩

def noRecords : ErrorMessages := { oneRecord with numErrors := 0 }

def twoCalls (i : Fin 2) : ErrorCall where
  type := if i = 0 then .error else .warn
  header := CString.ofAscii "Database"
  message := CString.ofAscii (if i = 0 then "no connection" else "slow query")

/-- Two callers whose field writes alternate. -/
theorem all_records_kept_twoCalls : ∃ (s : SharedTable (Fin 2)) (slot : Fin 2 → ℕ),
    Run (Fires (accessBy twoCalls)) (.initial (Fin 2) oneRecord) [0, 1, 1, 0, 0, 1, 1, 0, 0, 1] s ∧
      (∀ i, (s.stage i).status = some 0) ∧
      s.table.numErrors = 3 ∧ s.table.messages 0 = oneRecord.messages 0 ∧
      Set.BijOn slot Set.univ (Set.Ico 1 3) ∧
      ∀ i, s.table.messages (slot i) = (twoCalls i).record := by
  have hrun : ∃ s, Run (Fires (accessBy twoCalls)) (.initial (Fin 2) oneRecord)
      [0, 1, 1, 0, 0, 1, 1, 0, 0, 1] s ∧ ∀ i, (s.stage i).status ≠ none :=
    ⟨_, run_of_execute rfl, by decide⟩
  obtain ⟨s, hs, hdone⟩ := hrun
  obtain ⟨hstatus, hnum, hkept, slot, hbij, hrecords⟩ := all_records_kept (by decide) hs hdone
  exact ⟨s, slot, hs, hstatus, hnum, hkept 0 (by decide), hbij, hrecords⟩

end ModMp
