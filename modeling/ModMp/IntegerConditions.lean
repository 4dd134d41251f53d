import ModMp.Delimited
import ModMp.Segments
import ModMp.WhereConditions

/-!
# Conditions on integer columns

A condition on an integer column is checked byte by byte: digits and commas pass. It is used as a
number, or in parentheses as a list of numbers. Where the commas stand is not looked at, so what is
stored is a number or a list of numbers exactly when the commas of the condition stand alone and
inside, and it is not empty.
-/

namespace ModMp
open CLib Delimited

def IsNumber (text : Bytes) : Prop := text ≠ [] ∧ ∀ b ∈ text, isDigit b = true

instance (text : Bytes) : Decidable (IsNumber text) :=
  decidable_of_iff (text ≠ [] ∧ text.all isDigit = true) (by rw [IsNumber, List.all_eq_true])

/-- Numbers with single commas between them. -/
def IsNumberList (text : Bytes) : Prop :=
  ∃ numbers : List Bytes, numbers ≠ [] ∧ (∀ n ∈ numbers, IsNumber n) ∧
    text = [commaByte].intercalate numbers

/-- The right side of an SQL comparison with a number, or of one with a list of numbers. -/
def ValidOperand (w : QueryWhereCondition) : Prop :=
  w.operator = .equal ∧ IsNumber w.condition.bytes ∨
    w.operator = .inList ∧ ∃ list, IsNumberList list ∧
      w.condition.bytes = openParenthesis.bytes ++ list ++ closeParenthesis.bytes

theorem comma_notMem_of_isNumber {text : Bytes} (h : IsNumber text) : commaByte ∉ text := by
  intro hmem
  exact absurd (h.2 commaByte hmem) (by decide)

section Digits
variable {text : Bytes} (h : ∀ b ∈ text, (isDigit b || b == commaByte) = true)

include h

theorem isDigit_of_ne_comma {b : UInt8} (hb : b ∈ text) (hne : b ≠ commaByte) :
    isDigit b = true := by
  have hor := h b hb
  rw [Bool.or_eq_true, beq_iff_eq] at hor
  exact hor.resolve_right hne

theorem isNumberList_iff : IsNumberList text ↔ Tidy commaByte text := by
  rw [tidy_iff]
  constructor
  · rintro ⟨numbers, hne, hnumbers, rfl⟩
    rw [List.splitOn_intercalate commaByte
      (fun n hn => comma_notMem_of_isNumber (hnumbers n hn)) hne]
    exact fun n hn => (hnumbers n hn).1
  · intro hwords
    refine ⟨text.splitOn commaByte, List.splitOn_ne_nil _ _, ?_, ?_⟩
    · intro w hw
      refine ⟨hwords w hw, fun b hb => ?_⟩
      obtain ⟨hmem, hne⟩ := Segments.mem_of_mem_splitOn hw hb
      exact isDigit_of_ne_comma h hmem hne
    · rw [List.intercalate_splitOn]

theorem isNumber_iff (hcomma : commaByte ∉ text) : IsNumber text ↔ Tidy commaByte text := by
  rw [tidy_iff, List.splitOn_eq_singleton hcomma]
  constructor
  · intro hnumber w hw
    rw [List.mem_singleton.mp hw]
    exact hnumber.1
  · intro hwords
    refine ⟨hwords text List.mem_cons_self, fun b hb => isDigit_of_ne_comma h hb ?_⟩
    rintro rfl
    exact hcomma hb

end Digits

theorem whereEntry_validOperand_iff {column : DbTableColumn}
    (hcolumn : column.type = .int ∨ column.type = .bigint) {condition : CString}
    (hadmitted : Admitted column condition) :
    ValidOperand (whereEntry column condition) ↔ Tidy commaByte condition.bytes := by
  have hdigits : ∀ b ∈ condition.bytes, (isDigit b || b == commaByte) = true := by
    unfold Admitted at hadmitted
    rcases hcolumn with hcolumn | hcolumn <;> rw [hcolumn] at hadmitted <;>
      exact List.all_eq_true.mp hadmitted
  have hoperator : operatorOf column condition =
      if commaByte ∈ condition.bytes then .inList else .equal := by
    unfold operatorOf
    rcases hcolumn with hcolumn | hcolumn <;> rw [hcolumn]
  have hstored : storedText column condition = if commaByte ∈ condition.bytes then
      surround openParenthesis condition closeParenthesis else condition := by
    unfold storedText
    rcases hcolumn with hcolumn | hcolumn <;> rw [hcolumn]
  rw [ValidOperand, whereEntry, hoperator, hstored]
  by_cases hcomma : commaByte ∈ condition.bytes
  · rw [if_pos hcomma, if_pos hcomma, ← isNumberList_iff hdigits]
    simp [surround]
  · rw [if_neg hcomma, if_neg hcomma, ← isNumber_iff hdigits hcomma]
    simp

/-- The entry of an accepted condition on an integer column is a number or a list of numbers exactly
when the commas of the condition stand alone and inside, and it is not empty. -/
theorem addWhere_validOperand_iff (p : DbQueryParameters) {column : DbTableColumn}
    (hcolumn : column.type = .int ∨ column.type = .bigint) (condition : CString)
    {r : ℤ × DbQueryParameters × CString}
    (hr : dbQueryParameterAddWhere p column condition = .ok r) (haccepted : r.1 = 0) :
    ∃ w, r.2.1 = p.push w ∧ (ValidOperand w ↔ Tidy commaByte condition.bytes) := by
  rw [dbQueryParameterAddWhere_eq] at hr
  by_cases hadmitted : Admitted column condition
  · rw [if_pos hadmitted] at hr
    cases hr
    exact ⟨_, rfl, whereEntry_validOperand_iff hcolumn hadmitted⟩
  · rw [if_neg hadmitted] at hr
    cases hr
    exact absurd haccepted (show (-1 : ℤ) ≠ 0 by decide)

def yearColumn : DbTableColumn where
  id := CString.ofAscii "year"
  name := CString.ofAscii "year"
  freindlyName := CString.ofAscii "Year"
  type := .int

def twoYears : CString := CString.ofAscii "1969,1970"

theorem addWhere_two_years : ∃ w caller,
    dbQueryParameterAddWhere ⟨[]⟩ yearColumn twoYears = .ok (0, ⟨[w]⟩, caller) ∧
      ValidOperand w := by
  have hcall := dbQueryParameterAddWhere_eq ⟨[]⟩ twoYears yearColumn
  rw [if_pos (by decide)] at hcall
  obtain ⟨w, hw, hiff⟩ := addWhere_validOperand_iff ⟨[]⟩ (.inl rfl) twoYears hcall rfl
  refine ⟨w, callerText yearColumn twoYears, hcall.trans ?_, hiff.mpr (by decide)⟩
  exact congrArg (fun q => Except.ok (0, q, callerText yearColumn twoYears)) hw

/-- No byte of the empty text is refused, and no byte of one with a comma too many. -/
theorem addWhere_no_number : ∃ w v caller caller',
    dbQueryParameterAddWhere ⟨[]⟩ yearColumn (CString.ofAscii "") = .ok (0, ⟨[w]⟩, caller) ∧
      ¬ ValidOperand w ∧
    dbQueryParameterAddWhere ⟨[]⟩ yearColumn (CString.ofAscii "1969,") = .ok (0, ⟨[v]⟩, caller') ∧
      ¬ ValidOperand v := by
  have hempty := dbQueryParameterAddWhere_eq ⟨[]⟩ (CString.ofAscii "") yearColumn
  have hcomma := dbQueryParameterAddWhere_eq ⟨[]⟩ (CString.ofAscii "1969,") yearColumn
  rw [if_pos (by decide)] at hempty hcomma
  refine ⟨_, _, _, _, hempty, ?_, hcomma, ?_⟩
  · rw [whereEntry_validOperand_iff (.inl rfl) (by decide)]
    decide
  · rw [whereEntry_validOperand_iff (.inl rfl) (by decide)]
    decide

end ModMp
