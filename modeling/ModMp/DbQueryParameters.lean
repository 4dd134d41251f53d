import ModMp.CStringSearch
import ModMp.SqlLiteral

/-!
# Conditions of a WHERE clause

`dbQueryParameterAddWhere` checks the bytes of a search term against the type of its column,
rewrites it for SQL, and appends it to the conditions of the query. The asterisks of a text term
become percent signs in the caller's own bytes, so the function also returns these. Whether the
stored text is one SQL literal depends only on the quotes and backslashes of the term, which
nothing escapes.
-/

namespace ModMp
open CLib SqlLiteral

inductive ColumnType
  | int
  | varchar
  | datetime
  | bigint
  deriving DecidableEq

inductive ConditionOperator
  | equal
  | like
  | greater
  | less
  | between
  | inList
  deriving DecidableEq

structure DbTableColumn where
  id : CString
  name : CString
  freindlyName : CString
  type : ColumnType
  deriving DecidableEq

structure QueryWhereCondition where
  column : DbTableColumn
  operator : ConditionOperator
  condition : CString
  deriving DecidableEq

structure DbQueryParameters where
  whereConditions : List QueryWhereCondition
  deriving DecidableEq

def isDigit (b : UInt8) : Bool := 0x30 ≤ b && b ≤ 0x39

def isAlnum (b : UInt8) : Bool :=
  isDigit b || (0x41 ≤ b && b ≤ 0x5A) || (0x61 ≤ b && b ≤ 0x7A)

def isPrint (b : UInt8) : Bool := 0x20 ≤ b && b ≤ 0x7E

/-- The bytes the check of a text term lets through. -/
def isTextByte (b : UInt8) : Bool := isAlnum b || isPrint b

def asteriskByte : UInt8 := 0x2A

def percentByte : UInt8 := 0x25

def commaByte : UInt8 := 0x2C

theorem asterisk_ne_zero : asteriskByte ≠ 0 := by decide

theorem comma_ne_zero : commaByte ≠ 0 := by decide

theorem count_asterisk_set_lt (s : CString) {i : ℕ} {u v : Bytes}
    (h : s.bytes.drop i = u ++ asteriskByte :: v) :
    (s.bytes.set (i + u.length) percentByte).count asteriskByte < s.bytes.count asteriskByte := by
  have hne : percentByte ≠ asteriskByte := by decide
  rw [s.set_bytes_of_split h]
  conv_rhs => rw [s.bytes_of_drop h]
  simp only [List.count_append, List.count_cons_self, List.count_cons_of_ne hne]
  omega

/-- The loop that writes a percent sign over every asterisk, from the last one found on. -/
def replaceAsterisks (condition : CString) (asterisk : ℕ) : Except Fault CString :=
  match h : condition.strchr asterisk asteriskByte with
  | .error e => .error e
  | .ok none => .ok condition
  | .ok (some i) => replaceAsterisks (condition.set i percentByte (by decide)) i
termination_by condition.bytes.count asteriskByte
decreasing_by
  obtain ⟨u, v, huv, -, rfl⟩ := condition.split_of_strchr asterisk_ne_zero h
  exact count_asterisk_set_lt condition huv

/-- `apr_pstrcat(pool, before, condition, after, NULL)`. -/
def surround (before condition after : CString) : CString := (before.append condition).append after

def quoteString : CString := ⟨[quote], by decide⟩

def openParenthesis : CString := ⟨[0x28], by decide⟩

def closeParenthesis : CString := ⟨[0x29], by decide⟩

def DbQueryParameters.push (p : DbQueryParameters) (w : QueryWhereCondition) :
    DbQueryParameters where
  whereConditions := p.whereConditions ++ [w]

/-- The status, the parameters and the caller's condition bytes after the call. -/
def dbQueryParameterAddWhere (queryParameters : DbQueryParameters) (column : DbTableColumn)
    (condition : CString) : Except Fault (ℤ × DbQueryParameters × CString) :=
  match column.type with
  | .varchar =>
      if condition.bytes.all isTextByte then do
        match ← condition.strchr 0 asteriskByte with
        | none =>
            let text := surround quoteString condition quoteString
            return (0, queryParameters.push ⟨column, .equal, text⟩, condition)
        | some _ =>
            let condition ← replaceAsterisks condition 0
            let text := surround quoteString condition quoteString
            return (0, queryParameters.push ⟨column, .like, text⟩, condition)
      else return (-1, queryParameters, condition)
  | .datetime => return (0, queryParameters.push ⟨column, .equal, condition⟩, condition)
  | .int | .bigint =>
      if condition.bytes.all (fun b => isDigit b || b == commaByte) then do
        match ← condition.strchr 0 commaByte with
        | none => return (0, queryParameters.push ⟨column, .equal, condition⟩, condition)
        | some _ =>
            let text := surround openParenthesis condition closeParenthesis
            return (0, queryParameters.push ⟨column, .inList, text⟩, condition)
      else return (-1, queryParameters, condition)

def asteriskToPercent (b : UInt8) : UInt8 := if b = asteriskByte then percentByte else b

theorem map_asteriskToPercent_of_notMem {l : Bytes} (h : asteriskByte ∉ l) :
    l.map asteriskToPercent = l := by
  have hid : ∀ b ∈ l, asteriskToPercent b = id b := by
    intro b hb
    exact if_neg (by rintro rfl; exact h hb)
  rw [List.map_congr_left hid, List.map_id]

theorem replaceAsterisks_none {s : CString} {i : ℕ} (h : s.strchr i asteriskByte = .ok none) :
    replaceAsterisks s i = .ok s := by
  rw [replaceAsterisks.eq_def]
  split <;> rename_i he <;> cases h.symm.trans he
  rfl

theorem replaceAsterisks_some {s : CString} {i j : ℕ}
    (h : s.strchr i asteriskByte = .ok (some j)) :
    replaceAsterisks s i = replaceAsterisks (s.set j percentByte (by decide)) j := by
  rw [replaceAsterisks.eq_def]
  split <;> rename_i he <;> cases h.symm.trans he
  rfl

/-- From its cursor on the loop replaces every asterisk, and it never leaves the string. -/
theorem replaceAsterisks_bytes (s : CString) {i : ℕ} (hi : i ≤ s.length) :
    ∃ t, replaceAsterisks s i = .ok t ∧
      t.bytes = s.bytes.take i ++ (s.bytes.drop i).map asteriskToPercent := by
  induction s, i using replaceAsterisks.induct with
  | case1 s i e h =>
      rw [s.strchr_eq hi asterisk_ne_zero] at h
      simp at h
  | case2 s i h =>
      refine ⟨s, replaceAsterisks_none h, ?_⟩
      rw [map_asteriskToPercent_of_notMem (s.notMem_of_strchr asterisk_ne_zero h),
        List.take_append_drop]
  | case3 s i j h ih =>
      obtain ⟨u, v, huv, hu, rfl⟩ := s.split_of_strchr asterisk_ne_zero h
      have hbytes : (s.set (i + u.length) percentByte (by decide)).bytes =
          (s.bytes.take i ++ u) ++ percentByte :: v := by
        rw [CString.set_bytes, s.set_bytes_of_split huv, List.append_assoc]
      have hlen : (s.bytes.take i ++ u).length = i + u.length := by
        rw [List.length_append, List.length_take_of_le hi]
      have hj : i + u.length ≤ (s.set (i + u.length) percentByte (by decide)).length := by
        rw [CString.length, hbytes, List.length_append, hlen]
        omega
      obtain ⟨t, ht, hb⟩ := ih hj
      refine ⟨t, (replaceAsterisks_some h).trans ht, ?_⟩
      rw [hb, hbytes, ← hlen, List.take_left, List.drop_left, huv, List.map_append,
        map_asteriskToPercent_of_notMem hu, List.map_cons, List.map_cons, List.append_assoc]
      rfl

theorem addWhere_varchar (p : DbQueryParameters) {column : DbTableColumn}
    (hcolumn : column.type = .varchar) {condition : CString}
    (hall : condition.bytes.all isTextByte = true) :
    ∃ operator text caller,
      dbQueryParameterAddWhere p column condition =
        .ok (0, p.push ⟨column, operator, text⟩, caller) ∧
      text.bytes = quote :: (condition.bytes.map asteriskToPercent ++ [quote]) := by
  unfold dbQueryParameterAddWhere
  rw [hcolumn]
  dsimp only
  rw [if_pos hall]
  by_cases hmem : asteriskByte ∈ condition.bytes
  · obtain ⟨caller, hcaller, hbytes⟩ := replaceAsterisks_bytes condition (Nat.zero_le _)
    refine ⟨.like, surround quoteString caller quoteString, caller, ?_, ?_⟩
    · rw [condition.strchr_eq (Nat.zero_le _) asterisk_ne_zero, List.drop_zero, if_pos hmem,
        ok_bind]
      dsimp only
      rw [hcaller]
      rfl
    · rw [List.take_zero, List.nil_append, List.drop_zero] at hbytes
      rw [← hbytes]
      rfl
  · refine ⟨.equal, surround quoteString condition quoteString, condition, ?_, ?_⟩
    · rw [condition.strchr_eq (Nat.zero_le _) asterisk_ne_zero, List.drop_zero, if_neg hmem]
      rfl
    · rw [map_asteriskToPercent_of_notMem hmem]
      rfl

theorem addWhere_varchar_refused (p : DbQueryParameters) {column : DbTableColumn}
    (hcolumn : column.type = .varchar) {condition : CString}
    (hall : ¬ condition.bytes.all isTextByte = true) :
    dbQueryParameterAddWhere p column condition = .ok (-1, p, condition) := by
  unfold dbQueryParameterAddWhere
  rw [hcolumn]
  dsimp only
  rw [if_neg hall]
  rfl

theorem body_asteriskToPercent_iff (body : Bytes) :
    Body (body.map asteriskToPercent) ↔ Body body := by
  have hother : ∀ c, c ≠ asteriskByte → c ≠ percentByte → ∀ b, asteriskToPercent b = c ↔ b = c := by
    intro c hasterisk hpercent b
    unfold asteriskToPercent
    by_cases hb : b = asteriskByte
    · rw [if_pos hb, hb]
      exact ⟨fun h => absurd h.symm hpercent, fun h => absurd h.symm hasterisk⟩
    · rw [if_neg hb]
  exact body_map_iff (hother quote (by decide) (by decide))
    (hother backslash (by decide) (by decide)) body

/-- The stored text of an accepted text term is one SQL literal exactly when the term itself reads
as the inside of one: its quotes and backslashes are stored as they are. -/
theorem addWhere_varchar_isLiteral_iff (p : DbQueryParameters) {column : DbTableColumn}
    (hcolumn : column.type = .varchar) (condition : CString)
    {r : ℤ × DbQueryParameters × CString}
    (hr : dbQueryParameterAddWhere p column condition = .ok r) (haccepted : r.1 = 0) :
    ∃ w, r.2.1 = p.push w ∧ (IsLiteral w.condition.bytes ↔ Body condition.bytes) := by
  by_cases hall : condition.bytes.all isTextByte = true
  · obtain ⟨operator, text, caller, heq, htext⟩ := addWhere_varchar p hcolumn hall
    cases hr.symm.trans heq
    refine ⟨⟨column, operator, text⟩, rfl, ?_⟩
    rw [htext, isLiteral_quoted_iff, body_asteriskToPercent_iff]
  · cases hr.symm.trans (addWhere_varchar_refused p hcolumn hall)
    simp at haccepted

def nameColumn : DbTableColumn where
  id := CString.ofAscii "title"
  name := CString.ofAscii "song_name"
  freindlyName := CString.ofAscii "Title"
  type := .varchar

theorem nameColumn_type : nameColumn.type = .varchar := rfl

/-- A quote that ends the literal, and an SQL condition after it. -/
def injectedTerm : CString where
  bytes := quote :: " OR 1=1 -- ".toList.map Char.toUInt8
  nul_free := by decide

theorem addWhere_injectedTerm : ∃ w caller,
    dbQueryParameterAddWhere ⟨[]⟩ nameColumn injectedTerm = .ok (0, ⟨[w]⟩, caller) ∧
      ¬ IsLiteral w.condition.bytes := by
  obtain ⟨operator, text, caller, heq, htext⟩ := addWhere_varchar ⟨[]⟩ nameColumn_type
    (show injectedTerm.bytes.all isTextByte = true by decide)
  refine ⟨⟨nameColumn, operator, text⟩, caller, heq, ?_⟩
  rw [htext, isLiteral_quoted_iff, body_asteriskToPercent_iff]
  decide

/-- A doubled quote, an escaped quote and an asterisk stay inside. -/
def enclosedTerm : CString := ⟨[0x61, quote, quote, asteriskByte, backslash, quote], by decide⟩

theorem addWhere_enclosedTerm : ∃ w, IsLiteral w.condition.bytes ∧
    ∃ caller, dbQueryParameterAddWhere ⟨[]⟩ nameColumn enclosedTerm = .ok (0, ⟨[w]⟩, caller) := by
  obtain ⟨operator, text, caller, heq, htext⟩ := addWhere_varchar ⟨[]⟩ nameColumn_type
    (show enclosedTerm.bytes.all isTextByte = true by decide)
  obtain ⟨w, hw, hiff⟩ := addWhere_varchar_isLiteral_iff ⟨[]⟩ nameColumn_type enclosedTerm
    heq rfl
  refine ⟨w, hiff.mpr (by decide), caller, heq.trans ?_⟩
  exact congrArg (fun q => Except.ok (0, q, caller)) hw

end ModMp
