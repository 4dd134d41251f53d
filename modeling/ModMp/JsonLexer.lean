import ModMp.JsonString

/-!
# JSON tokens

A text is a list of symbols: bytes, and strings that are given as a whole and are read as string
characters. The lexer is a machine that reads one symbol after the other, so that what it makes of
two texts one after the other is known from what it makes of each. A string token keeps its body as
it is written, and a number its digits.
-/

namespace JsonText
open CLib JsonString

variable {τ : Type}

inductive Sym (τ : Type)
  | byte (b : UInt8)
  | given (t : τ)
  deriving DecidableEq

abbrev Text (τ : Type) := List (Sym τ)

def lit (s : String) : Text τ := s.toList.map (fun c => .byte c.toUInt8)

/-- A given string between quotes. -/
def quotedGiven (t : τ) : Text τ := lit "\"" ++ [.given t] ++ lit "\""

def quotedBytes (bytes : Bytes) : Text τ := lit "\"" ++ bytes.map .byte ++ lit "\""

inductive Token (τ : Type)
  | beginObject
  | endObject
  | beginArray
  | endArray
  | nameSeparator
  | valueSeparator
  | string (body : Text τ)
  | number (digits : Bytes)
  | word (letters : Bytes)
  deriving DecidableEq

inductive LexState (τ : Type)
  | between
  | string (body : Text τ)
  | escape (body : Text τ)
  | hex (body : Text τ) (n : ℕ)
  | number (digits : Bytes)
  | word (letters : Bytes)
  deriving DecidableEq

def isDigit (b : UInt8) : Bool := 0x30 ≤ b && b ≤ 0x39

def isLetter (b : UInt8) : Bool := 0x61 ≤ b && b ≤ 0x7A

def isNumberByte (b : UInt8) : Bool := isDigit b || [0x2D, 0x2B, 0x2E, 0x45, 0x65].contains b

/-- What follows the digits of an exponent, or of a number without one. -/
def isExponent : Bytes → Bool
  | [] => true
  | e :: l =>
      let digits := match l with
        | sign :: digits => if sign = 0x2D ∨ sign = 0x2B then digits else l
        | [] => []
      (e == 0x45 || e == 0x65) && digits != [] && digits.all isDigit

/-- The number production of RFC 8259. -/
def isNumber (l : Bytes) : Bool :=
  let l := if l.head? = some 0x2D then l.tail else l
  let digits := l.takeWhile isDigit
  let l := l.dropWhile isDigit
  (digits == [0x30] || digits != [] && digits.head? != some 0x30) &&
    match l with
    | 0x2E :: l => l.takeWhile isDigit != [] && isExponent (l.dropWhile isDigit)
    | l => isExponent l

/-- A byte between two tokens. -/
def lexBegin (b : UInt8) : Option (List (Token τ) × LexState τ) :=
  if b = 0x20 ∨ b = 0x09 ∨ b = 0x0A ∨ b = 0x0D then some ([], .between)
  else if b = 0x7B then some ([.beginObject], .between)
  else if b = 0x7D then some ([.endObject], .between)
  else if b = 0x5B then some ([.beginArray], .between)
  else if b = 0x5D then some ([.endArray], .between)
  else if b = 0x3A then some ([.nameSeparator], .between)
  else if b = 0x2C then some ([.valueSeparator], .between)
  else if b = quote then some ([], .string [])
  else if b = 0x2D ∨ isDigit b then some ([], .number [b])
  else if isLetter b then some ([], .word [b])
  else none

/-- A byte after a token that has no end of its own. -/
def lexBeginAfter (t : Token τ) (b : UInt8) : Option (List (Token τ) × LexState τ) :=
  (lexBegin b).map (fun r => (t :: r.1, r.2))

/-- The tokens that a symbol ends or is, and the state after it. -/
def lexStep : LexState τ → Sym τ → Option (List (Token τ) × LexState τ)
  | .between, .byte b => lexBegin b
  | .string body, .byte b =>
      if b = quote then some ([.string body], .between)
      else if b = backslash then some ([], .escape (body ++ [.byte b]))
      else if b < 0x20 then none
      else some ([], .string (body ++ [.byte b]))
  | .string body, .given t => some ([], .string (body ++ [.given t]))
  | .escape body, .byte b =>
      if b = 0x75 then some ([], .hex (body ++ [.byte b]) 4)
      else if (shortEscape b).isSome then some ([], .string (body ++ [.byte b]))
      else none
  | .hex body n, .byte b =>
      if (hexDigit b).isNone then none
      else if n ≤ 1 then some ([], .string (body ++ [.byte b]))
      else some ([], .hex (body ++ [.byte b]) (n - 1))
  | .number digits, .byte b =>
      if isNumberByte b then some ([], .number (digits ++ [b]))
      else if isNumber digits then lexBeginAfter (.number digits) b
      else none
  | .word letters, .byte b =>
      if isLetter b then some ([], .word (letters ++ [b])) else lexBeginAfter (.word letters) b
  | _, .given _ => none

def lexRun : LexState τ → Text τ → Option (List (Token τ) × LexState τ)
  | state, [] => some ([], state)
  | state, c :: text =>
      (lexStep state c).bind (fun r => (lexRun r.2 text).map (fun q => (r.1 ++ q.1, q.2)))

def tokens (text : Text τ) : Option (List (Token τ)) := do
  match ← lexRun .between text with
  | (tokens, .between) => return tokens
  | (tokens, .number digits) => if isNumber digits then return tokens ++ [.number digits] else none
  | (tokens, .word letters) => return tokens ++ [.word letters]
  | _ => none

/-- The text is read as these tokens wherever no token has been begun. -/
def Lexes (text : Text τ) (l : List (Token τ)) : Prop :=
  lexRun .between text = some (l, .between)

instance [DecidableEq τ] (text : Text τ) (l : List (Token τ)) : Decidable (Lexes text l) :=
  inferInstanceAs (Decidable (_ = _))

def isPlain (b : UInt8) : Bool := b ≠ quote ∧ b ≠ backslash ∧ ¬ b < 0x20

theorem lexRun_plain {bytes : Bytes} (h : ∀ b ∈ bytes, isPlain b = true) (body rest : Text τ) :
    lexRun (.string body) (bytes.map .byte ++ rest) =
      lexRun (.string (body ++ bytes.map .byte)) rest := by
  induction bytes generalizing body with
  | nil => rw [List.map_nil, List.nil_append, List.append_nil]
  | cons b bytes ih =>
      obtain ⟨hquote, hbackslash, hcontrol⟩ := of_decide_eq_true (h b List.mem_cons_self)
      have hstep : lexStep (.string body) (.byte b) = some ([], .string (body ++ [.byte b])) :=
        (if_neg hquote).trans ((if_neg hbackslash).trans (if_neg hcontrol))
      rw [List.map_cons, List.cons_append, lexRun, hstep, Option.bind_some,
        ih (fun c hc => h c (List.mem_cons_of_mem b hc)), List.append_assoc]
      exact Option.map_id' ..

theorem lexRun_append (state : LexState τ) (text rest : Text τ) :
    lexRun state (text ++ rest) = (lexRun state text).bind
      (fun r => (lexRun r.2 rest).map (fun q => (r.1 ++ q.1, q.2))) := by
  induction text generalizing state with
  | nil =>
      rw [lexRun, Option.bind_some]
      exact (Option.map_id' ..).symm
  | cons c text ih =>
      rw [List.cons_append, lexRun, lexRun, Option.bind_assoc]
      congr 1
      funext r
      rw [ih, Option.map_bind, Option.bind_map]
      congr 1
      funext q
      rw [Function.comp_apply, Function.comp_apply, Option.map_map]
      congr 1
      funext q
      rw [Function.comp_apply, List.append_assoc]

namespace Lexes

theorem tokens_eq {text : Text τ} {l : List (Token τ)} (h : Lexes text l) :
    tokens text = some l := by
  rw [tokens, h]
  rfl

theorem nil : Lexes ([] : Text τ) [] := rfl

theorem quoted (t : τ) : Lexes (quotedGiven t) [.string [.given t]] := rfl

theorem quotedPlain {bytes : Bytes} (h : ∀ b ∈ bytes, isPlain b = true) :
    Lexes (quotedBytes bytes : Text τ) [.string (bytes.map .byte)] := by
  rw [Lexes, quotedBytes, List.append_assoc]
  change (lexRun (.string []) (bytes.map .byte ++ lit "\"")).map _ = _
  rw [lexRun_plain h, List.nil_append]
  rfl

theorem append {text rest : Text τ} {l m : List (Token τ)} (h : Lexes text l)
    (hrest : Lexes rest m) : Lexes (text ++ rest) (l ++ m) := by
  rw [Lexes, lexRun_append, h, Option.bind_some, hrest]
  rfl

theorem flatMap {α : Type} {f : α → Text τ} {g : α → List (Token τ)} {l : List α}
    (h : ∀ a ∈ l, Lexes (f a) (g a)) : Lexes (l.flatMap f) (l.flatMap g) := by
  induction l with
  | nil => exact nil
  | cons a l ih =>
      exact (h a List.mem_cons_self).append (ih (fun b hb => h b (List.mem_cons_of_mem a hb)))

theorem ite {P : Prop} [Decidable P] {text : Text τ} {l : List (Token τ)} (h : Lexes text l) :
    Lexes (if P then text else []) (if P then l else []) := by
  split_ifs
  · exact h
  · exact nil

end Lexes

end JsonText
