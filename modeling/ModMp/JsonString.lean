import ModMp.CString

/-!
# JSON strings

The string production of RFC 8259 over UTF-8 bytes, and the value it denotes. A body is first cut
into pieces: raw bytes and two-character escapes give one byte each, and a `\u` escape gives a
UTF-16 code unit. The value then joins surrogate pairs and encodes every code unit in UTF-8.
-/

namespace JsonString
open CLib

inductive Piece
  | byte (b : UInt8)
  | unit (n : ℕ)
  deriving DecidableEq

def hexDigit (b : UInt8) : Option ℕ :=
  if 0x30 ≤ b ∧ b ≤ 0x39 then some (b.toNat - 0x30)
  else if 0x41 ≤ b ∧ b ≤ 0x46 then some (b.toNat - 0x41 + 10)
  else if 0x61 ≤ b ∧ b ≤ 0x66 then some (b.toNat - 0x61 + 10)
  else none

def codeUnit (a b c d : UInt8) : Option ℕ := do
  return (← hexDigit a) * 4096 + (← hexDigit b) * 256 + (← hexDigit c) * 16 + (← hexDigit d)

/-- The byte denoted by a backslash and `b`, when `b` is one of `"`, `\`, `/`, `b`, `f`, `n`, `r`
and `t`. -/
def shortEscape (b : UInt8) : Option UInt8 :=
  if b = quote ∨ b = backslash ∨ b = 0x2F then some b
  else if b = 0x62 then some 0x08
  else if b = 0x66 then some 0x0C
  else if b = 0x6E then some 0x0A
  else if b = 0x72 then some 0x0D
  else if b = 0x74 then some 0x09
  else none

/-- The pieces of a string body, or `none` outside the grammar. -/
def pieces : Bytes → Option (List Piece)
  | [] => some []
  | b :: body =>
      if b = quote ∨ b < 0x20 then none
      else if b = backslash then
        match body with
        | 0x75 :: h₁ :: h₂ :: h₃ :: h₄ :: rest => do
            return .unit (← codeUnit h₁ h₂ h₃ h₄) :: (← pieces rest)
        | e :: rest => do return .byte (← shortEscape e) :: (← pieces rest)
        | [] => none
      else (pieces body).map (.byte b :: ·)

def encode (codePoint : ℕ) : Option Bytes :=
  if codePoint.isValidChar then some (String.utf8EncodeChar (Char.ofNat codePoint)) else none

/-- The bytes denoted by a list of pieces; a surrogate outside a pair denotes nothing. -/
def denote : List Piece → Option Bytes
  | [] => some []
  | .byte b :: rest => (denote rest).map (b :: ·)
  | .unit high :: .unit low :: rest =>
      if 0xD800 ≤ high ∧ high < 0xDC00 ∧ 0xDC00 ≤ low ∧ low < 0xE000 then do
        return (← encode (0x10000 + (high - 0xD800) * 0x400 + (low - 0xDC00))) ++ (← denote rest)
      else do return (← encode high) ++ (← denote (.unit low :: rest))
  | .unit n :: rest => do return (← encode n) ++ (← denote rest)

def ValidUtf8 (bytes : Bytes) : Prop := ∃ cs : List Char, bytes = cs.flatMap String.utf8EncodeChar

def quoted (body : Bytes) : Bytes := quote :: (body ++ [quote])

/-- The text is a JSON string by the grammar and denotes `value`. -/
def Denotes (text value : Bytes) : Prop :=
  ValidUtf8 text ∧ ∃ body ps, text = quoted body ∧ pieces body = some ps ∧ denote ps = some value

/-- Puts a backslash before every quote and every backslash. -/
def escape (body : Bytes) : Bytes :=
  body.flatMap (fun b => if b = quote ∨ b = backslash then [backslash, b] else [b])

@[simp] theorem escape_nil : escape [] = [] := rfl

theorem escape_cons_special {b : UInt8} (hb : b = quote ∨ b = backslash) (body : Bytes) :
    escape (b :: body) = backslash :: b :: escape body := by
  rw [escape, List.flatMap_cons, if_pos hb]
  rfl

theorem escape_cons_plain {b : UInt8} (hb : ¬ (b = quote ∨ b = backslash)) (body : Bytes) :
    escape (b :: body) = b :: escape body := by
  rw [escape, List.flatMap_cons, if_neg hb]
  rfl

theorem escape_append (u v : Bytes) : escape (u ++ v) = escape u ++ escape v :=
  List.flatMap_append

theorem escape_eq_self {body : Bytes} (h : ∀ b ∈ body, ¬ (b = quote ∨ b = backslash)) :
    escape body = body := by
  induction body with
  | nil => rfl
  | cons b body ih =>
      rw [escape_cons_plain (h b List.mem_cons_self),
        ih (fun a ha => h a (List.mem_cons_of_mem b ha))]

def escapeByte (b : UInt8) : Bytes :=
  if b = quote then [backslash, quote]
  else if b = backslash then [backslash, backslash]
  else [b]

theorem escape_eq_flatMap (body : Bytes) : escape body = body.flatMap escapeByte := by
  rw [escape]
  congr 1
  funext b
  unfold escapeByte
  by_cases hquote : b = quote
  · rw [if_pos (.inl hquote), if_pos hquote, hquote]
  · by_cases hback : b = backslash
    · rw [if_pos (.inr hback), if_neg hquote, if_pos hback, hback]
    · rw [if_neg (not_or.mpr ⟨hquote, hback⟩), if_neg hquote, if_neg hback]

/-- Read from left to right, the text ends behind the backslash of an escape. -/
def inEscape (text : Bytes) : Bool :=
  text.foldl (fun inside b => !inside && b == backslash) false

theorem inEscape_cons_escape (b : UInt8) (text : Bytes) :
    inEscape (backslash :: b :: text) = inEscape text := rfl

theorem inEscape_cons_plain {b : UInt8} (hb : b ≠ backslash) (text : Bytes) :
    inEscape (b :: text) = inEscape text := by
  rw [inEscape, List.foldl_cons, beq_false_of_ne hb]
  rfl

theorem inEscape_of_escape {body u v : Bytes} (h : escape body = u ++ quote :: v) :
    inEscape u = true := by
  induction body generalizing u with
  | nil => exact absurd h.symm (List.append_ne_nil_of_right_ne_nil u (List.cons_ne_nil quote v))
  | cons b body ih =>
      by_cases hb : b = quote ∨ b = backslash
      · rw [escape_cons_special hb] at h
        match u with
        | [] => exact absurd (List.cons.inj h).1 (by decide)
        | [c] =>
            rw [← (List.cons.inj h).1]
            rfl
        | c :: d :: u =>
            obtain ⟨hc, hd, hrest⟩ : backslash = c ∧ b = d ∧ escape body = u ++ quote :: v := by
              simpa using h
            rw [← hc, inEscape_cons_escape]
            exact ih hrest
      · rw [escape_cons_plain hb] at h
        obtain ⟨hquote, hback⟩ := not_or.mp hb
        cases u with
        | nil => exact absurd (List.cons.inj h).1 hquote
        | cons c u =>
            obtain ⟨rfl, hrest⟩ := List.cons.inj h
            rw [inEscape_cons_plain hback]
            exact ih hrest

/-- Takes away the backslash of each escape, from left to right. -/
def removeEscapes : Bytes → Bytes
  | [] => []
  | b :: text =>
      if b = backslash then
        match text with
        | c :: rest => c :: removeEscapes rest
        | [] => []
      else b :: removeEscapes text

theorem removeEscapes_escape (body : Bytes) : removeEscapes (escape body) = body := by
  induction body with
  | nil => rfl
  | cons b body ih =>
      by_cases hb : b = quote ∨ b = backslash
      · rw [escape_cons_special hb, removeEscapes, if_pos rfl, ih]
      · rw [escape_cons_plain hb, removeEscapes.eq_def]
        dsimp only
        rw [if_neg (not_or.mp hb).2, ih]

/-- A character is encoded as one ASCII byte, or without any ASCII byte. -/
theorem utf8EncodeChar_cases (c : Char) :
    (∃ b : UInt8, b < 0x80 ∧ String.utf8EncodeChar c = [b]) ∨
      ∀ b ∈ String.utf8EncodeChar c, 0x80 ≤ b := by
  have hlarge : ∀ n, n < 256 → 128 ≤ n → (0x80 : UInt8) ≤ UInt8.ofNat n := by
    intro n hlt hle
    rw [UInt8.le_iff_toNat_le, UInt8.toNat_ofNat_of_lt' hlt]
    exact hle
  unfold String.utf8EncodeChar
  dsimp only
  split_ifs with h₁ h₂ h₃
  · left
    have hlt : c.val.toNat < UInt8.size := h₁.trans_lt (by norm_num)
    refine ⟨_, ?_, rfl⟩
    rw [UInt8.lt_iff_toNat_lt, UInt8.toNat_ofNat_of_lt' hlt]
    exact Nat.lt_succ_of_le h₁
  all_goals
    right
    intro b hb
    simp only [List.mem_cons, List.not_mem_nil, or_false] at hb
  · rcases hb with rfl | rfl <;> apply hlarge <;> omega
  · rcases hb with rfl | rfl | rfl <;> apply hlarge <;> omega
  · rcases hb with rfl | rfl | rfl | rfl <;> apply hlarge <;> omega

theorem validUtf8_nil : ValidUtf8 [] := ⟨[], rfl⟩

theorem ValidUtf8.append {u v : Bytes} (hu : ValidUtf8 u) (hv : ValidUtf8 v) :
    ValidUtf8 (u ++ v) := by
  obtain ⟨cs, rfl⟩ := hu
  obtain ⟨ds, rfl⟩ := hv
  exact ⟨cs ++ ds, List.flatMap_append.symm⟩

theorem validUtf8_char (c : Char) : ValidUtf8 (String.utf8EncodeChar c) :=
  ⟨[c], by simp⟩

theorem validUtf8_quote : ValidUtf8 [quote] := validUtf8_char (Char.ofNat 0x22)

theorem validUtf8_backslash : ValidUtf8 [backslash] := validUtf8_char (Char.ofNat 0x5C)

theorem ValidUtf8.quoted {body : Bytes} (h : ValidUtf8 body) : ValidUtf8 (quoted body) :=
  validUtf8_quote.append (h.append validUtf8_quote)

theorem validUtf8_escape_char (c : Char) : ValidUtf8 (escape (String.utf8EncodeChar c)) := by
  rcases utf8EncodeChar_cases c with ⟨b, hb, hc⟩ | hlarge
  · by_cases hs : b = quote ∨ b = backslash
    · rw [hc, escape_cons_special hs, escape_nil, ← hc]
      exact validUtf8_backslash.append (validUtf8_char c)
    · rw [hc, escape_cons_plain hs, escape_nil, ← hc]
      exact validUtf8_char c
  · have hself : escape (String.utf8EncodeChar c) = String.utf8EncodeChar c := by
      apply escape_eq_self
      rintro b hb (rfl | rfl)
      · exact absurd (hlarge _ hb) (by decide)
      · exact absurd (hlarge _ hb) (by decide)
    rw [hself]
    exact validUtf8_char c

theorem ValidUtf8.escape {body : Bytes} (h : ValidUtf8 body) : ValidUtf8 (escape body) := by
  obtain ⟨cs, rfl⟩ := h
  induction cs with
  | nil => exact validUtf8_nil
  | cons c cs ih =>
      rw [List.flatMap_cons, escape_append]
      exact (validUtf8_escape_char c).append ih

theorem pieces_cons_special {b : UInt8} (hb : b = quote ∨ b = backslash) (body : Bytes) :
    pieces (backslash :: b :: body) = (pieces body).map (.byte b :: ·) := by
  rw [pieces.eq_def]
  rcases hb with rfl | rfl <;>
    simp [quote, backslash, shortEscape, Option.map_eq_bind]

theorem pieces_cons_plain {b : UInt8} (hb : ¬ (b = quote ∨ b = backslash)) (hlow : 0x20 ≤ b)
    (body : Bytes) : pieces (b :: body) = (pieces body).map (.byte b :: ·) := by
  obtain ⟨hq, hs⟩ := not_or.mp hb
  rw [pieces.eq_def]
  simp only [hq, hs, UInt8.not_lt.mpr hlow, or_false, if_false]

theorem pieces_cons_low {b : UInt8} (hlow : b < 0x20) (body : Bytes) :
    pieces (b :: body) = none := by
  rw [pieces.eq_def]
  exact if_pos (.inr hlow)

theorem pieces_escape_iff (body : Bytes) (ps : List Piece) : pieces (escape body) = some ps ↔
    (∀ b ∈ body, 0x20 ≤ b) ∧ ps = body.map .byte := by
  induction body generalizing ps with
  | nil =>
      rw [escape_nil, pieces, Option.some.injEq, List.map_nil, eq_comm, iff_and_self]
      exact fun _ b hb => absurd hb List.not_mem_nil
  | cons b body ih =>
      have hcons (hlow : 0x20 ≤ b) : (pieces (escape body)).map (.byte b :: ·) = some ps ↔
          (∀ a ∈ b :: body, 0x20 ≤ a) ∧ ps = (b :: body).map .byte := by
        rw [Option.map_eq_some_iff, List.forall_mem_cons, and_iff_right hlow, List.map_cons]
        constructor
        · rintro ⟨ps', hps', rfl⟩
          obtain ⟨hall, rfl⟩ := (ih ps').mp hps'
          exact ⟨hall, rfl⟩
        · rintro ⟨hall, rfl⟩
          exact ⟨_, (ih _).mpr ⟨hall, rfl⟩, rfl⟩
      by_cases hs : b = quote ∨ b = backslash
      · rw [escape_cons_special hs, pieces_cons_special hs]
        exact hcons (by rcases hs with rfl | rfl <;> decide)
      · by_cases hlow : 0x20 ≤ b
        · rw [escape_cons_plain hs, pieces_cons_plain hs hlow]
          exact hcons hlow
        · rw [escape_cons_plain hs, pieces_cons_low (UInt8.not_le.mp hlow)]
          exact iff_of_false (by simp) (fun h => hlow (h.1 b List.mem_cons_self))

theorem denote_map_byte (body : Bytes) : denote (body.map .byte) = some body := by
  induction body with
  | nil => rfl
  | cons b body ih => rw [List.map_cons, denote, ih, Option.map_some]

theorem quoted_injective : Function.Injective quoted := by
  intro u v h
  exact List.append_cancel_right (List.cons.inj h).2

theorem denotes_quoted_escape_iff {value : Bytes} (h : ValidUtf8 value) :
    Denotes (quoted (escape value)) value ↔ ∀ b ∈ value, 0x20 ≤ b := by
  constructor
  · rintro ⟨_, body, ps, htext, hps, _⟩
    rw [← quoted_injective htext, pieces_escape_iff] at hps
    exact hps.1
  · intro hlow
    exact ⟨h.escape.quoted, escape value, value.map .byte, rfl,
      (pieces_escape_iff _ _).mpr ⟨hlow, rfl⟩, denote_map_byte value⟩

end JsonString
