import ModMp.ErrorRecords

/-!
# Copying one error table into another

`error_messages_duplicate` works on two tables in memory. Its loop is bounded by the counter of the
old table, writes at an index that starts from the counter of the new one, and moves that counter
along. For two distinct tables it appends a copy of every old record, whether there is room or not;
the callers pass two such tables.
-/

namespace ModMp
open CLib

variable {ι : Type} [DecidableEq ι]

/-- The tables in memory, and the slots of the new table written so far. -/
structure Duplicating (ι : Type) where
  tables : ι → ErrorMessages
  written : List ℕ

/-- The record as the arguments of the three writes that copy it. -/
def ErrorMessage.call (m : ErrorMessage) : ErrorCall := ⟨m.type, m.headerText, m.messageText⟩

namespace Duplicating

variable (s : Duplicating ι)

/-- A write of one field of the record `old->messages[i]` to `new->messages[errorNum]`. -/
def copyField (new old : ι) (write : ErrorMessages → ℕ → ErrorCall → ErrorMessages)
    (i errorNum : ℕ) : Duplicating ι where
  tables := Function.update s.tables new
    (write (s.tables new) errorNum ((s.tables old).messages i).call)
  written := s.written ++ [errorNum]

def increment (new : ι) : Duplicating ι where
  tables := Function.update s.tables new
    { s.tables new with numErrors := (s.tables new).numErrors + 1 }
  written := s.written

def step (new old : ι) (offset i : ℕ) : Duplicating ι :=
  let errorNum := i + offset
  let s := s.copyField new old .writeType i errorNum
  let s := s.copyField new old .writeHeader i errorNum
  let s := s.copyField new old .writeMessage i errorNum
  s.increment new

end Duplicating

/-- The loop from its index `i` on, for at most `fuel` checks of its condition. -/
def duplicateFrom (new old : ι) (offset : ℕ) : ℕ → ℕ → Duplicating ι → Option (Duplicating ι)
  | 0, _, _ => none
  | fuel + 1, i, s =>
      if i < (s.tables old).numErrors then
        duplicateFrom new old offset fuel (i + 1) (s.step new old offset i)
      else some s

/-- `error_messages_duplicate` on the tables `new` and `old` of a memory. -/
def errorMessagesDuplicateIn (fuel : ℕ) (tables : ι → ErrorMessages) (new old : ι) :
    Option (Duplicating ι) :=
  duplicateFrom new old (tables new).numErrors fuel 0 ⟨tables, []⟩

theorem takeWhile_takeD {l : Bytes} (h : ∀ b ∈ l, b ≠ 0) {k : ℕ} (hk : l.length ≤ k) :
    (l.takeD k 0).takeWhile (· != 0) = l := by
  induction l generalizing k with
  | nil =>
      cases k with
      | zero => rfl
      | succ k => rfl
  | cons b l ih =>
      cases k with
      | zero => exact absurd hk (Nat.not_succ_le_zero _)
      | succ k =>
          rw [List.takeD_succ, List.head?_cons, Option.getD_some, List.tail_cons,
            List.takeWhile_cons_of_pos (by simpa using h b List.mem_cons_self),
            ih (fun c hc => h c (List.mem_cons_of_mem b hc)) (Nat.succ_le_succ_iff.mp hk)]

theorem ofBytes_strncpy (v : List.Vector UInt8 maxErrorSize) :
    CString.ofBytes ((CString.ofBytes v.toList).strncpy maxErrorSize).toList =
      CString.ofBytes v.toList := by
  have hlength : (CString.ofBytes v.toList).bytes.length ≤ maxErrorSize := by
    have hle := (List.takeWhile_sublist (fun b : UInt8 => b != 0) (l := v.toList)).length_le
    rwa [v.toList_length] at hle
  exact CString.eq_of_bytes (takeWhile_takeD
    (fun b hb => (CString.ofBytes v.toList).ne_zero_of_mem hb) hlength)

/-- The record that a copy of a record is. -/
def ErrorMessage.copied (m : ErrorMessage) : ErrorMessage := m.call.record

namespace ErrorMessages

/-- The new table after the first iterations of the loop. -/
def duplicateLoop (new old : ErrorMessages) : ℕ → ErrorMessages
  | 0 => new
  | i + 1 =>
      let t := duplicateLoop new old i
      let errorNum := i + new.numErrors
      let t := t.writeType errorNum (old.messages i).call
      let t := t.writeHeader errorNum (old.messages i).call
      let t := t.writeMessage errorNum (old.messages i).call
      { t with numErrors := t.numErrors + 1 }

theorem numErrors_duplicateLoop (new old : ErrorMessages) (i : ℕ) :
    (new.duplicateLoop old i).numErrors = new.numErrors + i := by
  induction i with
  | zero => rfl
  | succ i ih => exact congrArg (· + 1) ih

theorem records_duplicateLoop (new old : ErrorMessages) (i : ℕ) :
    (new.duplicateLoop old i).records =
      new.records ++ (List.range i).map (fun j => (old.messages j).copied) := by
  induction i with
  | zero => rw [List.range_zero, List.map_nil, List.append_nil, duplicateLoop]
  | succ i ih =>
      have hnum := numErrors_duplicateLoop new old i
      have hmessages : (new.duplicateLoop old (i + 1)).messages = Function.update
          (new.duplicateLoop old i).messages (new.duplicateLoop old i).numErrors
          (old.messages i).copied := by
        rw [hnum, Nat.add_comm new.numErrors i]
        exact writeMessage_writeHeader_writeType _ _ _
      rw [records, numErrors_duplicateLoop, ← Nat.add_assoc, ← hnum, List.range_succ,
        List.map_append, hmessages, List.range_succ, List.map_append, ← List.append_assoc, ← ih]
      congr 1
      · apply List.map_congr_left
        intro j hj
        exact Function.update_of_ne (List.mem_range.mp hj).ne _ _
      · rw [List.map_singleton, Function.update_self, List.map_singleton]

end ErrorMessages

/-- The state of the loop after `k` iterations. -/
def duplicated (tables : ι → ErrorMessages) (new old : ι) (k : ℕ) : Duplicating ι where
  tables := Function.update tables new ((tables new).duplicateLoop (tables old) k)
  written := (List.range k).flatMap (fun i => List.replicate 3 (i + (tables new).numErrors))

section Loop
variable {tables : ι → ErrorMessages} {new old : ι}

theorem duplicated_old (hne : old ≠ new) (k : ℕ) :
    (duplicated tables new old k).tables old = tables old := Function.update_of_ne hne _ _

theorem mem_written_duplicated {j k : ℕ} :
    j ∈ (duplicated tables new old k).written ↔
      ∃ i < k, j = i + (tables new).numErrors := by
  simp [duplicated]

theorem copyField_update (hne : old ≠ new) (t : ErrorMessages) (written : List ℕ)
    (write : ErrorMessages → ℕ → ErrorCall → ErrorMessages) (i errorNum : ℕ) :
    Duplicating.copyField ⟨Function.update tables new t, written⟩ new old write i errorNum =
      ⟨Function.update tables new (write t errorNum ((tables old).messages i).call),
        written ++ [errorNum]⟩ := by
  simp [Duplicating.copyField, Function.update_of_ne hne]

theorem step_duplicated (hne : old ≠ new) (i : ℕ) :
    (duplicated tables new old i).step new old (tables new).numErrors i =
      duplicated tables new old (i + 1) := by
  simp only [Duplicating.step, duplicated, copyField_update hne, Duplicating.increment,
    Function.update_self, Function.update_idem, List.range_succ, List.flatMap_append,
    List.append_assoc]
  rfl

/-- Two distinct tables: the loop ends, after one iteration for each old record. -/
theorem duplicateFrom_eq (hne : old ≠ new) {k fuel : ℕ} (hk : k ≤ (tables old).numErrors)
    (hfuel : (tables old).numErrors - k < fuel) :
    duplicateFrom new old (tables new).numErrors fuel k (duplicated tables new old k) =
      some (duplicated tables new old (tables old).numErrors) := by
  induction fuel generalizing k with
  | zero => exact absurd hfuel (Nat.not_lt_zero _)
  | succ fuel ih =>
      rw [duplicateFrom, duplicated_old hne]
      by_cases hlt : k < (tables old).numErrors
      · rw [if_pos hlt, step_duplicated hne]
        exact ih hlt (by omega)
      · rw [if_neg hlt, Nat.le_antisymm hk (not_lt.mp hlt)]

theorem errorMessagesDuplicateIn_eq (hne : old ≠ new) {fuel : ℕ}
    (hfuel : (tables old).numErrors < fuel) :
    errorMessagesDuplicateIn fuel tables new old =
      some (duplicated tables new old (tables old).numErrors) := by
  have hstart : (⟨tables, []⟩ : Duplicating ι) = duplicated tables new old 0 := by
    simp [duplicated, ErrorMessages.duplicateLoop]
  rw [errorMessagesDuplicateIn, hstart]
  exact duplicateFrom_eq hne (Nat.zero_le _) hfuel

end Loop

/-- `error_messages_duplicate` with two distinct tables. A write that leaves the array of the new
one has no result. -/
def errorMessagesDuplicate (new old : ErrorMessages) : Option ErrorMessages := do
  let s ← errorMessagesDuplicateIn (old.numErrors + 1)
    (fun isNew => if isNew then new else old) true false
  if ∀ j ∈ s.written, j < maxErrors then some (s.tables true) else none

theorem errorMessagesDuplicate_eq (new old : ErrorMessages) : errorMessagesDuplicate new old =
    if old.numErrors = 0 ∨ new.numErrors + old.numErrors ≤ maxErrors
      then some (new.duplicateLoop old old.numErrors) else none := by
  have hin : errorMessagesDuplicateIn (old.numErrors + 1)
      (fun isNew => if isNew then new else old) true false =
        some (duplicated _ true false old.numErrors) :=
    errorMessagesDuplicateIn_eq (by decide) (Nat.lt_succ_self _)
  have hwritten : (∀ j ∈ (duplicated (fun isNew => if isNew then new else old) true false
      old.numErrors).written, j < maxErrors) ↔
        old.numErrors = 0 ∨ new.numErrors + old.numErrors ≤ maxErrors := by
    simp only [mem_written_duplicated, if_true]
    constructor
    · intro h
      rcases Nat.eq_zero_or_pos old.numErrors with hzero | hpos
      · exact .inl hzero
      · have hlast := h (old.numErrors - 1 + new.numErrors) ⟨old.numErrors - 1, by omega, rfl⟩
        exact .inr (by omega)
    · rintro h j ⟨i, hi, rfl⟩
      omega
  rw [errorMessagesDuplicate, hin]
  change (if _ then some _ else none) = _
  exact if_congr hwritten rfl rfl

theorem records_errorMessagesDuplicate {new old t : ErrorMessages}
    (h : errorMessagesDuplicate new old = some t) :
    t.numErrors = new.numErrors + old.numErrors ∧
      t.records = new.records ++ old.records.map ErrorMessage.copied := by
  rw [errorMessagesDuplicate_eq] at h
  split_ifs at h
  cases h
  refine ⟨ErrorMessages.numErrors_duplicateLoop new old _, ?_⟩
  have hold : old.records = (List.range old.numErrors).map old.messages := rfl
  rw [ErrorMessages.records_duplicateLoop, hold, List.map_map]
  rfl

theorem messages_duplicateLoop (new old : ErrorMessages) (k : ℕ) :
    (∀ j < new.numErrors, (new.duplicateLoop old k).messages j = new.messages j) ∧
      ∀ j < k, (new.duplicateLoop old k).messages (new.numErrors + j) =
        (old.messages j).copied := by
  induction k with
  | zero => exact ⟨fun _ _ => rfl, fun j hj => absurd hj (Nat.not_lt_zero j)⟩
  | succ k ih =>
      have hmessages : (new.duplicateLoop old (k + 1)).messages = Function.update
          (new.duplicateLoop old k).messages (k + new.numErrors) (old.messages k).copied :=
        ErrorMessages.writeMessage_writeHeader_writeType _ _ _
      rw [hmessages]
      constructor
      · intro j hj
        rw [Function.update_of_ne (by omega)]
        exact ih.1 j hj
      · intro j hj
        rcases Nat.lt_succ_iff_lt_or_eq.mp hj with hlt | rfl
        · rw [Function.update_of_ne (by omega)]
          exact ih.2 j hlt
        · rw [Nat.add_comm new.numErrors j, Function.update_self]

def SameRecord (a b : ErrorMessage) : Prop :=
  a.type = b.type ∧ a.headerText = b.headerText ∧ a.messageText = b.messageText

theorem sameRecord_copied (m : ErrorMessage) : SameRecord m.copied m :=
  ⟨rfl, ofBytes_strncpy m.header, ofBytes_strncpy m.message⟩

/-- The copy stays in bounds and keeps both tables. -/
structure KeepsBoth (tables : ι → ErrorMessages) (new old : ι) (s : Duplicating ι) : Prop where
  written : ∀ j ∈ s.written, j < maxErrors
  numErrors : (s.tables new).numErrors ≤ maxErrors
  earlier : ∀ j < (tables new).numErrors, (s.tables new).messages j = (tables new).messages j
  oldTable : s.tables old = tables old
  copied : ∃ k ≤ (tables old).numErrors,
    (s.tables new).numErrors = (tables new).numErrors + k ∧
      (∀ j < k, SameRecord ((s.tables new).messages ((tables new).numErrors + j))
        ((tables old).messages j)) ∧
      ((tables new).numErrors + (tables old).numErrors ≤ maxErrors →
        k = (tables old).numErrors)

theorem keepsBoth_duplicated_iff {tables : ι → ErrorMessages} {new old : ι} (hne : old ≠ new) :
    KeepsBoth tables new old (duplicated tables new old (tables old).numErrors) ↔
      (tables new).numErrors + (tables old).numErrors ≤ maxErrors := by
  have htable : (duplicated tables new old (tables old).numErrors).tables new =
      (tables new).duplicateLoop (tables old) (tables old).numErrors := Function.update_self _ _ _
  have hnum := ErrorMessages.numErrors_duplicateLoop (tables new) (tables old)
    (tables old).numErrors
  obtain ⟨hearlier, hcopied⟩ := messages_duplicateLoop (tables new) (tables old)
    (tables old).numErrors
  constructor
  · intro h
    have hle := h.numErrors
    rwa [htable, hnum] at hle
  · intro h
    refine ⟨?_, ?_, ?_, duplicated_old hne _, (tables old).numErrors, le_rfl, ?_, ?_, fun _ => rfl⟩
    · intro j hj
      obtain ⟨i, hi, rfl⟩ := mem_written_duplicated.mp hj
      omega
    · rw [htable, hnum]
      exact h
    · rw [htable]
      exact hearlier
    · rw [htable, hnum]
    · intro j hj
      rw [htable, hcopied j hj]
      exact sameRecord_copied _

/-- For two distinct tables the call returns, and it stays in bounds and keeps both exactly when
their records fit into one table. -/
theorem errorMessagesDuplicate_keepsBoth_iff (tables : ι → ErrorMessages) {new old : ι}
    (hne : new ≠ old) :
    ∃ s, (∀ fuel, (tables old).numErrors < fuel →
        errorMessagesDuplicateIn fuel tables new old = some s) ∧
      (KeepsBoth tables new old s ↔
        (tables new).numErrors + (tables old).numErrors ≤ maxErrors) :=
  ⟨_, fun _ hfuel => errorMessagesDuplicateIn_eq hne.symm hfuel, keepsBoth_duplicated_iff hne.symm⟩

def requestTables (m : ℕ) (request : Bool) : ErrorMessages :=
  if request then oneRecord else { oneRecord with numErrors := m }

theorem requestTables_two_records : ∃ s,
    errorMessagesDuplicateIn 3 (requestTables 2) true false = some s ∧
      KeepsBoth (requestTables 2) true false s := by
  obtain ⟨s, hs, hiff⟩ := errorMessagesDuplicate_keepsBoth_iff (requestTables 2)
    (show true ≠ false by decide)
  exact ⟨s, hs 3 (by decide), hiff.mpr (by decide)⟩

/-- A full table copied behind one record. -/
theorem requestTables_full_overflows : ∃ s,
    errorMessagesDuplicateIn 1025 (requestTables maxErrors) true false = some s ∧
      maxErrors ∈ s.written ∧ ¬ KeepsBoth (requestTables maxErrors) true false s := by
  have hne : false ≠ true := by decide
  have hnew : (requestTables maxErrors true).numErrors = 1 := rfl
  have hold : (requestTables maxErrors false).numErrors = maxErrors := rfl
  have hmax : maxErrors = 1024 := rfl
  refine ⟨_, errorMessagesDuplicateIn_eq hne (by omega), ?_, ?_⟩
  · rw [mem_written_duplicated, hnew]
    exact ⟨maxErrors - 1, by omega, by omega⟩
  · rw [keepsBoth_duplicated_iff hne]
    omega

end ModMp
