import ModMp.ErrorMessages
import ModMp.Runs
import ModMp.Tickets

/-!
# Concurrent calls on one error table

Any number of callers run `errorMessagesAdd` on a shared table, one access at a time and in any
order. The atomic increment issues the slots: in every run the slots held are consecutive tickets,
and each shows exactly what its holder has written so far.
-/

namespace ModMp
open CLib Runs Tickets

/-- The last access a call has made; after the increment with its own `error_num`. -/
inductive CallStage
  | entered
  | checked
  | incremented (errorNum : ℕ)
  | wroteType (errorNum : ℕ)
  | wroteHeader (errorNum : ℕ)
  | succeeded (errorNum : ℕ)
  | refused
  deriving DecidableEq

namespace CallStage

def errorNum : CallStage → Option ℕ
  | .entered | .checked | .refused => none
  | .incremented e | .wroteType e | .wroteHeader e | .succeeded e => some e

def status : CallStage → Option ℤ
  | .succeeded _ => some 0
  | .refused => some (-1)
  | _ => none

/-- What a call at this stage has written of its record `r` into the slot that holds `m`. -/
def Written (r m : ErrorMessage) : CallStage → Prop
  | .wroteType _ => m.type = r.type
  | .wroteHeader _ => m.type = r.type ∧ m.header = r.header
  | .succeeded _ => m = r
  | _ => True

end CallStage

/-- The next access of a call, on the table as it is then. -/
def nextAccess (call : ErrorCall) : CallStage → ErrorMessages → Option (CallStage × ErrorMessages)
  | .entered, t => if t.Full then some (.refused, t) else some (.checked, t)
  | .checked, t => some (.incremented t.fetchAndAdd.1, t.fetchAndAdd.2)
  | .incremented e, t => some (.wroteType e, t.writeType e call)
  | .wroteType e, t => some (.wroteHeader e, t.writeHeader e call)
  | .wroteHeader e, t => some (.succeeded e, t.writeMessage e call)
  | .succeeded _, _ => none
  | .refused, _ => none

/-- A call that runs alone computes `errorMessagesAdd`. -/
theorem run_alone (call : ErrorCall) (t : ErrorMessages) :
    ∃ l stage, Run (Fires (fun s (_ : Unit) => nextAccess call s.1 s.2)) (.entered, t) l
        (stage, (errorMessagesAdd t call).2) ∧ stage.status = some (errorMessagesAdd t call).1 := by
  by_cases h : t.Full
  · rw [errorMessagesAdd_of_full h]
    refine ⟨[()], .refused, run_of_execute ?_, rfl⟩
    simp only [execute, nextAccess, if_pos h, Option.bind_some]
  · refine ⟨[(), (), (), (), ()], .succeeded t.numErrors, run_of_execute ?_, ?_⟩
    · simp only [execute, nextAccess, errorMessagesAdd, if_neg h, Option.bind_some]
      rfl
    · rw [(errorMessagesAdd_of_not_full h call).1]
      rfl

structure SharedTable (ι : Type) where
  table : ErrorMessages
  stage : ι → CallStage

namespace SharedTable

variable {ι : Type} [DecidableEq ι]

def initial (ι : Type) (t : ErrorMessages) : SharedTable ι := ⟨t, fun _ => .entered⟩

def set (s : SharedTable ι) (i : ι) (stage : CallStage) (table : ErrorMessages) :
    SharedTable ι := ⟨table, Function.update s.stage i stage⟩

variable (s : SharedTable ι) {i j : ι} (stage : CallStage) (table : ErrorMessages)

@[simp] theorem set_table : (s.set i stage table).table = table := rfl

@[simp] theorem set_stage_self : (s.set i stage table).stage i = stage :=
  Function.update_self _ _ _

theorem set_stage_of_ne (h : j ≠ i) : (s.set i stage table).stage j = s.stage j :=
  Function.update_of_ne h _ _

end SharedTable

variable {ι : Type} [DecidableEq ι]

/-- The next access of caller `i`. -/
def accessBy (calls : ι → ErrorCall) (s : SharedTable ι) (i : ι) : Option (SharedTable ι) :=
  (nextAccess (calls i) (s.stage i) s.table).map (fun r => s.set i r.1 r.2)

theorem accessBy_cases {calls : ι → ErrorCall} {s s' : SharedTable ι} {i : ι}
    (h : Fires (accessBy calls) s i s') :
    ∃ stage table, nextAccess (calls i) (s.stage i) s.table = some (stage, table) ∧
      s' = s.set i stage table := by
  obtain ⟨⟨stage, table⟩, hnext, rfl⟩ := Option.map_eq_some_iff.mp h
  exact ⟨stage, table, hnext, rfl⟩

/-- The slots held are the tickets issued from `base` on, every slot shows what its caller has
written, and the slots below `base` are as they were in `first`. -/
structure Consistent (base : ℕ) (first : ℕ → ErrorMessage) (calls : ι → ErrorCall)
    (s : SharedTable ι) : Prop where
  tickets : ∃ T : Issue ι base, T.next = s.table.numErrors ∧
    ∀ i, T.ticket i = (s.stage i).errorNum
  written : ∀ i e, (s.stage i).errorNum = some e →
    (s.stage i).Written (calls i).record (s.table.messages e)
  kept : ∀ j < base, s.table.messages j = first j

namespace Consistent

variable {base : ℕ} {first : ℕ → ErrorMessage} {calls : ι → ErrorCall} {s : SharedTable ι}

omit [DecidableEq ι] in
theorem initial (t : ErrorMessages) (calls : ι → ErrorCall) :
    Consistent t.numErrors t.messages calls (SharedTable.initial ι t) where
  tickets := ⟨Issue.start ι t.numErrors, rfl, fun _ => rfl⟩
  written _ _ h := by cases h
  kept _ _ := rfl

theorem of_errorNum_eq_none (h : Consistent base first calls s) {i : ι} {stage : CallStage}
    (hold : (s.stage i).errorNum = none) (hnew : stage.errorNum = none) :
    Consistent base first calls (s.set i stage s.table) where
  tickets := by
    obtain ⟨T, hnext, hticket⟩ := h.tickets
    refine ⟨T, hnext, fun j => ?_⟩
    by_cases hj : j = i
    · rw [hj, hticket, hold, SharedTable.set_stage_self, hnew]
    · rw [hticket, SharedTable.set_stage_of_ne _ _ _ hj]
  written j e hj := by
    by_cases hji : j = i
    · rw [hji, SharedTable.set_stage_self, hnew] at hj
      cases hj
    · rw [SharedTable.set_stage_of_ne _ _ _ hji] at hj ⊢
      exact h.written j e hj
  kept := h.kept

theorem increment (h : Consistent base first calls s) {i : ι}
    (hold : (s.stage i).errorNum = none) :
    Consistent base first calls
      (s.set i (.incremented s.table.fetchAndAdd.1) s.table.fetchAndAdd.2) where
  tickets := by
    obtain ⟨T, hnext, hticket⟩ := h.tickets
    refine ⟨T.take i ((hticket i).trans hold), congrArg (· + 1) hnext, fun j => ?_⟩
    by_cases hj : j = i
    · rw [hj, SharedTable.set_stage_self, Issue.take_ticket_self, hnext]
      rfl
    · rw [SharedTable.set_stage_of_ne _ _ _ hj, Issue.take_ticket_of_ne _ _ hj, hticket]
  written j e hj := by
    by_cases hji : j = i
    · rw [hji, SharedTable.set_stage_self]
      trivial
    · rw [SharedTable.set_stage_of_ne _ _ _ hji] at hj ⊢
      exact h.written j e hj
  kept := h.kept

theorem write (h : Consistent base first calls s) {i : ι} {e : ℕ} {stage : CallStage}
    {f : ErrorMessage → ErrorMessage} (hold : (s.stage i).errorNum = some e)
    (hnew : stage.errorNum = some e)
    (hwritten : stage.Written (calls i).record (f (s.table.messages e))) :
    Consistent base first calls (s.set i stage (s.table.update e f)) := by
  obtain ⟨T, hnext, hticket⟩ := h.tickets
  have hbase : base ≤ e := T.base_le_ticket ((hticket i).trans hold)
  refine ⟨⟨T, hnext, fun j => ?_⟩, fun j e' hj => ?_, fun j hj => ?_⟩
  · by_cases hji : j = i
    · rw [hji, hticket, hold, SharedTable.set_stage_self, hnew]
    · rw [hticket, SharedTable.set_stage_of_ne _ _ _ hji]
  · by_cases hji : j = i
    · rw [hji, SharedTable.set_stage_self, hnew] at hj
      cases hj
      rw [hji, SharedTable.set_stage_self, SharedTable.set_table,
        ErrorMessages.update_messages_self]
      exact hwritten
    · rw [SharedTable.set_stage_of_ne _ _ _ hji] at hj ⊢
      have hne : e' ≠ e := by
        rintro rfl
        exact hji (T.injective j i e' ((hticket j).trans hj) ((hticket i).trans hold))
      rw [SharedTable.set_table, ErrorMessages.update_messages_of_ne _ hne]
      exact h.written j e' hj
  · rw [SharedTable.set_table, ErrorMessages.update_messages_of_ne _ (by omega)]
    exact h.kept j hj

theorem step (h : Consistent base first calls s) {i : ι} {s' : SharedTable ι}
    (hs : Fires (accessBy calls) s i s') : Consistent base first calls s' := by
  obtain ⟨stage, table, hnext, rfl⟩ := accessBy_cases hs
  cases hstage : s.stage i with
  | entered =>
      rw [hstage, nextAccess] at hnext
      split_ifs at hnext <;> cases hnext
      · exact h.of_errorNum_eq_none (by rw [hstage]; rfl) rfl
      · exact h.of_errorNum_eq_none (by rw [hstage]; rfl) rfl
  | checked =>
      rw [hstage] at hnext
      cases hnext
      exact h.increment (by rw [hstage]; rfl)
  | incremented e =>
      rw [hstage] at hnext
      cases hnext
      exact h.write (by rw [hstage]; rfl) rfl rfl
  | wroteType e =>
      have hw := h.written i e (by rw [hstage]; rfl)
      rw [hstage] at hw hnext
      cases hnext
      exact h.write (by rw [hstage]; rfl) rfl ⟨hw, rfl⟩
  | wroteHeader e =>
      have hw := h.written i e (by rw [hstage]; rfl)
      rw [hstage] at hw hnext
      cases hnext
      apply h.write (by rw [hstage]; rfl) rfl
      obtain ⟨htype, hheader⟩ := hw
      rw [CallStage.Written, htype, hheader]
      rfl
  | succeeded e =>
      rw [hstage] at hnext
      cases hnext
  | refused =>
      rw [hstage] at hnext
      cases hnext

theorem run {l : List ι} {t : ErrorMessages} (h : Run (Fires (accessBy calls)) (.initial ι t) l s) :
    Consistent t.numErrors t.messages calls s :=
  h.invariant (initial t calls) (fun _ _ _ hc ha => hc.step ha)

end Consistent

end ModMp
