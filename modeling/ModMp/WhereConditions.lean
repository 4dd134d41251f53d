import ModMp.DbQueryParameters
import ModMp.Runs

/-!
# What adding a WHERE condition does

For every column and every text, `dbQueryParameterAddWhere` either refuses the text and changes
nothing, or appends one entry. The entry, and the caller's bytes after the call, are functions of
the column and the text alone.
-/

namespace ModMp
open CLib Runs

/-- The bytes that may occur in a condition on a column of this type. -/
def ColumnType.admits : ColumnType → UInt8 → Bool
  | .varchar, b => isTextByte b
  | .datetime, _ => true
  | .int, b | .bigint, b => isDigit b || b == commaByte

def Admitted (column : DbTableColumn) (condition : CString) : Prop :=
  condition.bytes.all column.type.admits = true

instance (column : DbTableColumn) (condition : CString) : Decidable (Admitted column condition) :=
  inferInstanceAs (Decidable (_ = true))

theorem asteriskToPercent_ne_zero {b : UInt8} (hb : b ≠ 0) : asteriskToPercent b ≠ 0 := by
  unfold asteriskToPercent
  split_ifs
  · decide
  · exact hb

def percents (s : CString) : CString where
  bytes := s.bytes.map asteriskToPercent
  nul_free h := by
    obtain ⟨b, hb, hzero⟩ := List.mem_map.mp h
    exact asteriskToPercent_ne_zero (s.ne_zero_of_mem hb) hzero

theorem percents_of_notMem {s : CString} (h : asteriskByte ∉ s.bytes) : percents s = s :=
  CString.eq_of_bytes (map_asteriskToPercent_of_notMem h)

def operatorOf (column : DbTableColumn) (condition : CString) : ConditionOperator :=
  match column.type with
  | .varchar => if asteriskByte ∈ condition.bytes then .like else .equal
  | .datetime => .equal
  | .int | .bigint => if commaByte ∈ condition.bytes then .inList else .equal

def storedText (column : DbTableColumn) (condition : CString) : CString :=
  match column.type with
  | .varchar => surround quoteString (percents condition) quoteString
  | .datetime => condition
  | .int | .bigint =>
      if commaByte ∈ condition.bytes then surround openParenthesis condition closeParenthesis
      else condition

def callerText (column : DbTableColumn) (condition : CString) : CString :=
  match column.type with
  | .varchar => percents condition
  | .datetime | .int | .bigint => condition

def whereEntry (column : DbTableColumn) (condition : CString) : QueryWhereCondition :=
  ⟨column, operatorOf column condition, storedText column condition⟩

theorem replaceAsterisks_zero (s : CString) : replaceAsterisks s 0 = .ok (percents s) := by
  obtain ⟨t, ht, hbytes⟩ := replaceAsterisks_bytes s (Nat.zero_le _)
  rw [List.take_zero, List.nil_append, List.drop_zero] at hbytes
  rw [ht, CString.eq_of_bytes (t := percents s) hbytes]

theorem strchr_zero (s : CString) {c : UInt8} (hc : c ≠ 0) : s.strchr 0 c =
    .ok (if c ∈ s.bytes then some (s.bytes.takeWhile (· != c)).length else none) := by
  rw [s.strchr_eq (Nat.zero_le _) hc, List.drop_zero, Nat.zero_add]

section Cases
variable (p : DbQueryParameters) {column : DbTableColumn} (condition : CString)

theorem addWhere_varchar_eq (hcolumn : column.type = .varchar) :
    dbQueryParameterAddWhere p column condition = .ok (if Admitted column condition then
      (0, p.push (whereEntry column condition), callerText column condition)
    else (-1, p, condition)) := by
  unfold dbQueryParameterAddWhere Admitted whereEntry operatorOf storedText callerText
  simp only [hcolumn]
  change (if condition.bytes.all isTextByte = true then _ else _) =
    Except.ok (if condition.bytes.all isTextByte = true then _ else _)
  by_cases hall : condition.bytes.all isTextByte = true
  · rw [if_pos hall, if_pos hall, strchr_zero condition asterisk_ne_zero, ok_bind]
    by_cases hmem : asteriskByte ∈ condition.bytes
    · rw [if_pos hmem, if_pos hmem]
      dsimp only
      rw [replaceAsterisks_zero]
      rfl
    · rw [if_neg hmem, if_neg hmem, percents_of_notMem hmem]
      rfl
  · rw [if_neg hall, if_neg hall]
    rfl

theorem addWhere_integer_eq (hcolumn : column.type = .int ∨ column.type = .bigint) :
    dbQueryParameterAddWhere p column condition = .ok (if Admitted column condition then
      (0, p.push (whereEntry column condition), callerText column condition)
    else (-1, p, condition)) := by
  have hfound := strchr_zero condition comma_ne_zero
  obtain ⟨id, name, freindlyName, type⟩ := column
  unfold dbQueryParameterAddWhere Admitted whereEntry operatorOf storedText callerText
  -- the two integer types take the same branch
  rcases hcolumn with rfl | rfl
  all_goals
    change (if condition.bytes.all (fun b => isDigit b || b == commaByte) = true then _ else _) =
      Except.ok
        (if condition.bytes.all (fun b => isDigit b || b == commaByte) = true then _ else _)
    by_cases hall : condition.bytes.all (fun b => isDigit b || b == commaByte) = true
    · rw [if_pos hall, if_pos hall, hfound, ok_bind]
      by_cases hmem : commaByte ∈ condition.bytes
      · simp only [if_pos hmem]
        rfl
      · simp only [if_neg hmem]
        rfl
    · rw [if_neg hall, if_neg hall]
      rfl

theorem dbQueryParameterAddWhere_eq (column : DbTableColumn) :
    dbQueryParameterAddWhere p column condition = .ok (if Admitted column condition then
      (0, p.push (whereEntry column condition), callerText column condition)
    else (-1, p, condition)) := by
  cases hcolumn : column.type with
  | int => exact addWhere_integer_eq p condition (.inl hcolumn)
  | varchar => exact addWhere_varchar_eq p condition hcolumn
  | datetime =>
      have hadmitted : Admitted column condition := by
        rw [Admitted, hcolumn]
        exact List.all_eq_true.mpr (fun _ _ => rfl)
      rw [if_pos hadmitted]
      unfold dbQueryParameterAddWhere whereEntry operatorOf storedText callerText
      simp only [hcolumn]
      rfl
  | bigint => exact addWhere_integer_eq p condition (.inr hcolumn)

end Cases

theorem not_admitted_iff {column : DbTableColumn} {condition : CString} :
    ¬ Admitted column condition ↔
      column.type = .varchar ∧ (∃ b ∈ condition.bytes, isAlnum b = false ∧ isPrint b = false) ∨
      (column.type = .int ∨ column.type = .bigint) ∧
        ∃ b ∈ condition.bytes, isDigit b = false ∧ b ≠ commaByte := by
  unfold Admitted
  cases column.type <;>
    simp [ColumnType.admits, isTextByte, -List.mem_map]

theorem operatorOf_eq_like_iff {column : DbTableColumn} {condition : CString} :
    operatorOf column condition = .like ↔
      column.type = .varchar ∧ asteriskByte ∈ condition.bytes := by
  unfold operatorOf
  cases column.type <;> grind

theorem operatorOf_eq_inList_iff {column : DbTableColumn} {condition : CString} :
    operatorOf column condition = .inList ↔
      (column.type = .int ∨ column.type = .bigint) ∧ commaByte ∈ condition.bytes := by
  unfold operatorOf
  cases column.type <;> grind

theorem operatorOf_cases (column : DbTableColumn) (condition : CString) :
    operatorOf column condition = .like ∨ operatorOf column condition = .inList ∨
      operatorOf column condition = .equal := by
  unfold operatorOf
  cases column.type <;> grind

theorem callerText_bytes (column : DbTableColumn) (condition : CString) :
    (callerText column condition).bytes =
      if column.type = .varchar then condition.bytes.map asteriskToPercent
      else condition.bytes := by
  unfold callerText
  cases column.type <;> rfl

/-- For every object, column and text the call refuses the text and changes nothing, or appends one
entry and changes the caller's bytes only from asterisks to percent signs. -/
theorem addWhere_all_or_nothing (p : DbQueryParameters) (column : DbTableColumn)
    (condition : CString) : ∃ status q caller,
    dbQueryParameterAddWhere p column condition = .ok (status, q, caller) ∧
      (status = -1 ∧ q = p ∧ caller = condition ∨
        status = 0 ∧
          (∃ w, q.whereConditions = p.whereConditions ++ [w] ∧ w.column = column ∧
            (w.operator = .like ↔ column.type = .varchar ∧ asteriskByte ∈ condition.bytes) ∧
            (w.operator = .inList ↔
              (column.type = .int ∨ column.type = .bigint) ∧ commaByte ∈ condition.bytes) ∧
            (w.operator = .like ∨ w.operator = .inList ∨ w.operator = .equal)) ∧
          caller.bytes = if column.type = .varchar then condition.bytes.map asteriskToPercent
            else condition.bytes) ∧
      (status = -1 ↔
        column.type = .varchar ∧
            (∃ b ∈ condition.bytes, isAlnum b = false ∧ isPrint b = false) ∨
          (column.type = .int ∨ column.type = .bigint) ∧
            ∃ b ∈ condition.bytes, isDigit b = false ∧ b ≠ commaByte) := by
  rw [dbQueryParameterAddWhere_eq, ← not_admitted_iff]
  by_cases hadmitted : Admitted column condition
  · rw [if_pos hadmitted]
    refine ⟨0, _, _, rfl, .inr ⟨rfl, ⟨_, rfl, rfl, operatorOf_eq_like_iff,
      operatorOf_eq_inList_iff, operatorOf_cases column condition⟩,
      callerText_bytes column condition⟩, ?_⟩
    exact iff_of_false (by decide) (not_not.mpr hadmitted)
  · rw [if_neg hadmitted]
    exact ⟨-1, p, condition, rfl, .inl ⟨rfl, rfl, rfl⟩, iff_of_true rfl hadmitted⟩

def AddCall (p : DbQueryParameters) (call : DbTableColumn × CString) (q : DbQueryParameters) :
    Prop :=
  ∃ status caller, dbQueryParameterAddWhere p call.1 call.2 = .ok (status, q, caller)

/-- After any calls the object has its old entries and those of the admitted calls, in order. -/
theorem addCall_run {p q : DbQueryParameters} {calls : List (DbTableColumn × CString)}
    (h : Run AddCall p calls q) : q.whereConditions = p.whereConditions ++
      (calls.filter (fun call => Admitted call.1 call.2)).map
        (fun call => whereEntry call.1 call.2) := by
  induction h with
  | nil => simp
  | @snoc calls t u call h hcall ih =>
      obtain ⟨status, caller, hcall⟩ := hcall
      rw [dbQueryParameterAddWhere_eq] at hcall
      rw [List.filter_append, List.map_append, ← List.append_assoc, ← ih]
      by_cases hadmitted : Admitted call.1 call.2
      · rw [if_pos hadmitted] at hcall
        cases hcall
        rw [List.filter_cons_of_pos (by simpa using hadmitted)]
        rfl
      · rw [if_neg hadmitted] at hcall
        cases hcall
        rw [List.filter_cons_of_neg (by simpa using hadmitted)]
        simp

end ModMp
