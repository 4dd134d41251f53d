import ModMp.Wildcards
import ModMp.WhereConditions

/-!
# The asterisk search and LIKE

In a search term an asterisk stands for any sequence of letters. It is stored as a percent sign and
compared with LIKE. There the percent signs and underscores of the term are wildcards as well, which
they are not in the term. So an accepted term keeps its meaning exactly when it has no asterisk, and
is compared for equality, or has neither a percent sign nor an underscore.
-/

namespace ModMp
open CLib Wildcards

def underscoreByte : UInt8 := 0x5F

/-- A byte of a search term. -/
def asteriskSymbol (b : UInt8) : Symbol UInt8 := if b = asteriskByte then .any else .letter b

/-- A byte of an operand of LIKE. -/
def likeSymbol (b : UInt8) : Symbol UInt8 :=
  if b = percentByte then .any else if b = underscoreByte then .one else .letter b

/-- The value is what the term searches for. -/
def IsFound (term : CString) (value : Bytes) : Prop :=
  Matches (term.bytes.map asteriskSymbol) value

/-- The text is a quoted SQL literal without escapes, and stands for the operand. -/
def DenotesPlain (text operand : Bytes) : Prop :=
  text = quote :: (operand ++ [quote]) ∧ quote ∉ operand ∧ backslash ∉ operand

/-- The value satisfies the stored comparison with a text. -/
def Satisfies (w : QueryWhereCondition) (value : Bytes) : Prop :=
  ∃ operand, DenotesPlain w.condition.bytes operand ∧
    (w.operator = .equal ∧ value = operand ∨
      w.operator = .like ∧ Matches (operand.map likeSymbol) value)

theorem asteriskToPercent_eq_iff {b c : UInt8} (hasterisk : c ≠ asteriskByte)
    (hpercent : c ≠ percentByte) : asteriskToPercent b = c ↔ b = c := by
  unfold asteriskToPercent
  by_cases hb : b = asteriskByte
  · rw [if_pos hb, hb]
    exact iff_of_false hpercent.symm hasterisk.symm
  · rw [if_neg hb]

theorem mem_map_asteriskToPercent {l : Bytes} {c : UInt8} (hasterisk : c ≠ asteriskByte)
    (hpercent : c ≠ percentByte) : c ∈ l.map asteriskToPercent ↔ c ∈ l := by
  rw [List.mem_map]
  constructor
  · rintro ⟨b, hb, heq⟩
    rwa [(asteriskToPercent_eq_iff hasterisk hpercent).mp heq] at hb
  · intro h
    exact ⟨c, h, (asteriskToPercent_eq_iff hasterisk hpercent).mpr rfl⟩

def likePattern (term : CString) : List (Symbol UInt8) :=
  (term.bytes.map asteriskToPercent).map likeSymbol

theorem likeSymbol_asteriskToPercent {b : UInt8} (hpercent : b ≠ percentByte)
    (hunderscore : b ≠ underscoreByte) : likeSymbol (asteriskToPercent b) = asteriskSymbol b := by
  unfold likeSymbol asteriskSymbol asteriskToPercent
  by_cases hb : b = asteriskByte
  · rw [if_pos hb, if_pos rfl, if_pos hb]
  · rw [if_neg hb, if_neg hpercent, if_neg hunderscore, if_neg hb]

theorem likePattern_eq {term : CString} (hpercent : percentByte ∉ term.bytes)
    (hunderscore : underscoreByte ∉ term.bytes) :
    likePattern term = term.bytes.map asteriskSymbol := by
  rw [likePattern, List.map_map]
  apply List.map_congr_left
  intro b hb
  apply likeSymbol_asteriskToPercent
  · rintro rfl
    exact hpercent hb
  · rintro rfl
    exact hunderscore hb

theorem letter_notMem_likePattern {term : CString} {c : UInt8}
    (hc : c = percentByte ∨ c = underscoreByte) : .letter c ∉ likePattern term := by
  intro hmem
  obtain ⟨b, -, hb⟩ := List.mem_map.mp hmem
  unfold likeSymbol at hb
  split_ifs at hb with hpercent hunderscore
  cases hb
  exact hc.elim hpercent hunderscore

/-- A percent sign or an underscore of the term need not be in what LIKE lets through. -/
theorem exists_like_not_found {term : CString} {c : UInt8} (hmem : c ∈ term.bytes)
    (hc : c = percentByte ∨ c = underscoreByte) :
    ∃ value, Matches (likePattern term) value ∧ ¬ IsFound term value := by
  refine ⟨fill 0x61 (likePattern term), matches_fill _ _, ?_⟩
  intro hfound
  have hsymbol : asteriskSymbol c = .letter c := by
    rcases hc with rfl | rfl <;> rfl
  have hletter : .letter c ∈ term.bytes.map asteriskSymbol :=
    List.mem_map.mpr ⟨c, hmem, hsymbol⟩
  have hcount := (List.count_pos_iff.mpr hletter).trans_le (hfound.count_le c)
  rcases mem_fill (List.count_pos_iff.mp hcount) with hfiller | hpattern
  · rcases hc with rfl | rfl <;> exact absurd hfiller (by decide)
  · exact letter_notMem_likePattern hc hpattern

theorem like_iff_found_iff {term : CString} :
    (∀ value, Matches (likePattern term) value ↔ IsFound term value) ↔
      percentByte ∉ term.bytes ∧ underscoreByte ∉ term.bytes := by
  constructor
  · intro h
    refine ⟨fun hmem => ?_, fun hmem => ?_⟩
    · obtain ⟨value, hlike, hfound⟩ := exists_like_not_found hmem (.inl rfl)
      exact hfound ((h value).mp hlike)
    · obtain ⟨value, hlike, hfound⟩ := exists_like_not_found hmem (.inr rfl)
      exact hfound ((h value).mp hlike)
  · rintro ⟨hpercent, hunderscore⟩ value
    rw [likePattern_eq hpercent hunderscore, IsFound]

theorem isFound_iff_of_no_asterisk {term : CString} (h : asteriskByte ∉ term.bytes)
    {value : Bytes} : IsFound term value ↔ value = term.bytes := by
  have hmap : term.bytes.map asteriskSymbol = term.bytes.map .letter := by
    apply List.map_congr_left
    intro b hb
    apply if_neg
    rintro rfl
    exact h hb
  rw [IsFound, hmap, matches_letters_iff]

section Stored
variable {column : DbTableColumn} {term : CString}

theorem denotesPlain_storedText_iff (hcolumn : column.type = .varchar)
    (hquote : quote ∉ term.bytes) (hbackslash : backslash ∉ term.bytes) {operand : Bytes} :
    DenotesPlain (storedText column term).bytes operand ↔
      operand = term.bytes.map asteriskToPercent := by
  have hstored : (storedText column term).bytes =
      quote :: (term.bytes.map asteriskToPercent ++ [quote]) := by
    unfold storedText
    rw [hcolumn]
    rfl
  rw [DenotesPlain, hstored]
  constructor
  · rintro ⟨heq, -⟩
    exact (List.append_cancel_right (List.cons.inj heq).2).symm
  · rintro rfl
    refine ⟨rfl, ?_, ?_⟩
    · rwa [mem_map_asteriskToPercent (by decide) (by decide)]
    · rwa [mem_map_asteriskToPercent (by decide) (by decide)]

theorem satisfies_whereEntry_iff (hcolumn : column.type = .varchar)
    (hquote : quote ∉ term.bytes) (hbackslash : backslash ∉ term.bytes) {value : Bytes} :
    Satisfies (whereEntry column term) value ↔
      if asteriskByte ∈ term.bytes then Matches (likePattern term) value
      else value = term.bytes := by
  have hoperator : operatorOf column term =
      if asteriskByte ∈ term.bytes then .like else .equal := by
    unfold operatorOf
    rw [hcolumn]
  simp only [Satisfies, whereEntry, denotesPlain_storedText_iff hcolumn hquote hbackslash,
    exists_eq_left, hoperator]
  by_cases hmem : asteriskByte ∈ term.bytes
  · simp [hmem, likePattern]
  · simp [hmem, map_asteriskToPercent_of_notMem hmem]

end Stored

/-- An accepted term without quotes and backslashes is compared with every value as it is meant
exactly when it has no asterisk, or neither a percent sign nor an underscore. -/
theorem addWhere_search_iff (p : DbQueryParameters) {column : DbTableColumn}
    (hcolumn : column.type = .varchar) {term : CString} (hquote : quote ∉ term.bytes)
    (hbackslash : backslash ∉ term.bytes) {r : ℤ × DbQueryParameters × CString}
    (hr : dbQueryParameterAddWhere p column term = .ok r) (haccepted : r.1 = 0) :
    ∃ w, r.2.1 = p.push w ∧
      ((∀ value, Satisfies w value ↔ IsFound term value) ↔
        (asteriskByte ∈ term.bytes →
          percentByte ∉ term.bytes ∧ underscoreByte ∉ term.bytes)) := by
  rw [dbQueryParameterAddWhere_eq] at hr
  by_cases hadmitted : Admitted column term
  · rw [if_pos hadmitted] at hr
    cases hr
    refine ⟨_, rfl, ?_⟩
    simp only [satisfies_whereEntry_iff hcolumn hquote hbackslash]
    by_cases hmem : asteriskByte ∈ term.bytes
    · simp only [hmem, true_imp_iff]
      exact like_iff_found_iff
    · simp only [hmem, false_imp_iff, iff_true]
      exact fun value => (isFound_iff_of_no_asterisk hmem).symm
  · rw [if_neg hadmitted] at hr
    cases hr
    exact absurd haccepted (show (-1 : ℤ) ≠ 0 by decide)

def loveTerm : CString := CString.ofAscii "*love*"

theorem addWhere_search_love : ∃ w caller,
    dbQueryParameterAddWhere ⟨[]⟩ nameColumn loveTerm = .ok (0, ⟨[w]⟩, caller) ∧
      ∀ value, Satisfies w value ↔ IsFound loveTerm value := by
  have hcall := dbQueryParameterAddWhere_eq ⟨[]⟩ loveTerm nameColumn
  rw [if_pos (by decide)] at hcall
  obtain ⟨w, hw, hiff⟩ := addWhere_search_iff ⟨[]⟩ nameColumn_type
    (show quote ∉ loveTerm.bytes by decide) (show backslash ∉ loveTerm.bytes by decide) hcall rfl
  refine ⟨w, callerText nameColumn loveTerm, hcall.trans ?_, hiff.mpr (by decide)⟩
  exact congrArg (fun q => Except.ok (0, q, callerText nameColumn loveTerm)) hw

def percentTerm : CString := ⟨[0x35, 0x30, percentByte, asteriskByte], by decide⟩

/-- LIKE lets through `500`, in which there is no percent sign. -/
theorem addWhere_search_percent : ∃ w caller,
    dbQueryParameterAddWhere ⟨[]⟩ nameColumn percentTerm = .ok (0, ⟨[w]⟩, caller) ∧
      Satisfies w [0x35, 0x30, 0x30] ∧ ¬ IsFound percentTerm [0x35, 0x30, 0x30] := by
  have hcall := dbQueryParameterAddWhere_eq ⟨[]⟩ percentTerm nameColumn
  rw [if_pos (by decide)] at hcall
  refine ⟨_, _, hcall, ?_, ?_⟩
  · rw [satisfies_whereEntry_iff nameColumn_type (by decide) (by decide), if_pos (by decide)]
    exact .letter _ (.letter _ (.skip (.more _ (.skip .nil))))
  · intro hfound
    exact absurd (hfound.count_le percentByte) (by decide)

end ModMp
