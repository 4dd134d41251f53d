import ModMp.JsonLexer

/-!
# JSON values

The reader is a machine on tokens with a stack of the arrays and objects that are open. A value is
read in the same way wherever one is expected, and a list of values or fields that is printed with
separators is read item by item, whether it is empty or not.
-/

namespace JsonText
open CLib

variable {τ : Type}

inductive Value (τ : Type)
  | null
  | bool (b : Bool)
  | number (digits : Bytes)
  | string (body : Text τ)
  | array (items : List (Value τ))
  | object (fields : List (Text τ × Value τ))

/-- An array or an object that is open, with what has been read of it. -/
inductive Partial (τ : Type)
  | array (items : List (Value τ))
  | object (fields : List (Text τ × Value τ))

/-- An array or an object in which a value is expected. -/
inductive Frame (τ : Type)
  | array (items : List (Value τ))
  | object (fields : List (Text τ × Value τ)) (name : Text τ)

def Frame.add (v : Value τ) : Frame τ → Partial τ
  | .array items => .array (items ++ [v])
  | .object fields name => .object (fields ++ [(name, v)])

/-- What is expected: a value, a name, the separator after a name, a separator or the end after an
item, or nothing. -/
inductive ReadState (τ : Type)
  | value (stack : List (Frame τ))
  | name (fields : List (Text τ × Value τ)) (stack : List (Frame τ))
  | nameSeparator (fields : List (Text τ × Value τ)) (name : Text τ) (stack : List (Frame τ))
  | item (p : Partial τ) (stack : List (Frame τ))
  | done (v : Value τ)

/-- The state after a value. -/
def complete (v : Value τ) : List (Frame τ) → ReadState τ
  | [] => .done v
  | frame :: stack => .item (frame.add v) stack

def wordValue (letters : Bytes) : Option (Value τ) :=
  if letters = [0x6E, 0x75, 0x6C, 0x6C] then some .null
  else if letters = [0x74, 0x72, 0x75, 0x65] then some (.bool true)
  else if letters = [0x66, 0x61, 0x6C, 0x73, 0x65] then some (.bool false)
  else none

/-- An array or an object may end where its first item is expected, and after each item. -/
def readStep : ReadState τ → Token τ → Option (ReadState τ)
  | .value stack, .string body => some (complete (.string body) stack)
  | .value stack, .number digits => some (complete (.number digits) stack)
  | .value stack, .word letters => (wordValue letters).map (complete · stack)
  | .value stack, .beginArray => some (.value (.array [] :: stack))
  | .value stack, .beginObject => some (.name [] stack)
  | .value (.array [] :: stack), .endArray => some (complete (.array []) stack)
  | .name fields stack, .string body => some (.nameSeparator fields body stack)
  | .name [] stack, .endObject => some (complete (.object []) stack)
  | .nameSeparator fields name stack, .nameSeparator => some (.value (.object fields name :: stack))
  | .item (.array items) stack, .valueSeparator => some (.value (.array items :: stack))
  | .item (.array items) stack, .endArray => some (complete (.array items) stack)
  | .item (.object fields) stack, .valueSeparator => some (.name fields stack)
  | .item (.object fields) stack, .endObject => some (complete (.object fields) stack)
  | _, _ => none

def readRun : ReadState τ → List (Token τ) → Option (ReadState τ)
  | state, [] => some state
  | state, t :: l => (readStep state t).bind (fun state => readRun state l)

def decode (text : Text τ) : Option (Value τ) := do
  match ← readRun (.value []) (← tokens text) with
  | .done v => return v
  | _ => none

theorem readRun_append (state : ReadState τ) (l m : List (Token τ)) :
    readRun state (l ++ m) = (readRun state l).bind (fun state => readRun state m) := by
  induction l generalizing state with
  | nil => rfl
  | cons t l ih =>
      rw [List.cons_append, readRun, readRun, Option.bind_assoc]
      congr 1
      funext state
      exact ih state

/-- The state in which the next item of an open array or object is expected. -/
def Partial.next (stack : List (Frame τ)) : Partial τ → ReadState τ
  | .array items => .value (.array items :: stack)
  | .object fields => .name fields stack

/-- Items with separators between them. -/
def separated {α : Type} (item : α → List (Token τ)) (l : List α) : List (Token τ) :=
  l.zipIdx.flatMap (fun a =>
    item a.1 ++ if a.2 + 1 < l.length then [Token.valueSeparator] else [])

theorem separated_singleton {α : Type} (item : α → List (Token τ)) (a : α) :
    separated item [a] = item a := by
  rw [separated, List.zipIdx_singleton, List.flatMap_singleton, List.length_singleton,
    if_neg (lt_irrefl _), List.append_nil]

theorem separated_pair {α : Type} (item : α → List (Token τ)) (a b : α) :
    separated item [a, b] = item a ++ .valueSeparator :: item b := by
  change (item a ++ [.valueSeparator]) ++ ((item b ++ []) ++ []) = _
  rw [List.append_nil, List.append_nil, List.append_assoc]
  rfl

theorem separated_cons_cons {α : Type} (item : α → List (Token τ)) (a b : α) (l : List α) :
    separated item (a :: b :: l) = item a ++ .valueSeparator :: separated item (b :: l) := by
  rw [separated, List.zipIdx_cons, List.flatMap_cons, if_pos (by simp), List.zipIdx_succ,
    List.flatMap_map, separated, List.append_assoc]
  simp only [List.length_cons, Nat.add_lt_add_iff_right]
  rfl

theorem readRun_separated_from {α : Type} {item : α → List (Token τ)} {p : List α → Partial τ}
    {l : List α} {stack : List (Frame τ)} (hitem : ∀ m, ∀ a ∈ l,
      readRun ((p m).next stack) (item a) = some (.item (p (m ++ [a])) stack))
    (hl : l ≠ []) (m : List α) {k n : ℕ} (hn : n = k + l.length) :
    readRun ((p m).next stack) ((l.zipIdx k).flatMap (fun a =>
      item a.1 ++ if a.2 + 1 < n then [Token.valueSeparator] else [])) =
      some (.item (p (m ++ l)) stack) := by
  induction l generalizing m k with
  | nil => exact absurd rfl hl
  | cons a l ih =>
      rw [List.zipIdx_cons, List.flatMap_cons, List.append_assoc, readRun_append,
        hitem m a List.mem_cons_self, Option.bind_some]
      rw [List.length_cons] at hn
      cases l with
      | nil =>
          rw [List.length_nil] at hn
          rw [if_neg (by omega)]
          rfl
      | cons b l =>
          rw [List.length_cons] at hn
          rw [if_pos (by omega)]
          have hseparator : readStep (.item (p (m ++ [a])) stack) .valueSeparator =
              some ((p (m ++ [a])).next stack) := by
            cases p (m ++ [a]) <;> rfl
          rw [List.cons_append, readRun, hseparator, Option.bind_some, List.nil_append,
            ih (fun m c hc => hitem m c (List.mem_cons_of_mem a hc)) (List.cons_ne_nil b l)
              (m ++ [a]) (by rw [List.length_cons]; omega), List.append_assoc]
          rfl

theorem readRun_separated {α : Type} (item : α → List (Token τ)) (p : List α → Partial τ)
    {l : List α} (stack : List (Frame τ)) (hl : l ≠ []) (hitem : ∀ m, ∀ a ∈ l,
      readRun ((p m).next stack) (item a) = some (.item (p (m ++ [a])) stack)) :
    readRun ((p []).next stack) (separated item l) = some (.item (p l) stack) :=
  readRun_separated_from hitem hl [] (Nat.zero_add _).symm

/-- The tokens are a value, wherever one is expected. -/
def Reads (l : List (Token τ)) (v : Value τ) : Prop :=
  ∀ stack, readRun (.value stack) l = some (complete v stack)

theorem decode_eq {text : Text τ} {l : List (Token τ)} {v : Value τ} (hlexes : Lexes text l)
    (hreads : Reads l v) : decode text = some v := by
  rw [decode, hlexes.tokens_eq]
  change (readRun (.value []) l).bind _ = _
  rw [hreads []]
  rfl

theorem decode_eq_none {text : Text τ} {l : List (Token τ)} (hlexes : Lexes text l)
    (hreads : readRun (.value []) l = none) : decode text = none := by
  rw [decode, hlexes.tokens_eq]
  change (readRun (.value []) l).bind _ = _
  rw [hreads]
  rfl

namespace Reads

variable {α : Type} {item : α → List (Token τ)} {v : α → Value τ} {l : List α}

theorem string (body : Text τ) : Reads [.string body] (.string body) := fun _ => rfl

theorem number (digits : Bytes) : Reads [.number digits] (.number digits : Value τ) := fun _ => rfl

theorem array (h : ∀ a ∈ l, Reads (item a) (v a)) :
    Reads (.beginArray :: (separated item l ++ [.endArray])) (.array (l.map v)) := by
  intro stack
  change readRun ((Partial.array (List.map v [])).next stack) _ = _
  rw [readRun_append]
  by_cases hl : l = []
  · rw [hl]
    rfl
  · rw [readRun_separated item (fun m => .array (m.map v)) stack hl]
    · rfl
    · intro m a ha
      rw [Partial.next, h a ha, List.map_append]
      rfl

def field (name : Text τ) (l : List (Token τ)) : List (Token τ) :=
  .string name :: .nameSeparator :: l

theorem readRun_field {fields : List (Text τ × Value τ)} {stack : List (Frame τ)} {name : Text τ}
    {m : List (Token τ)} {w : Value τ} (h : Reads m w) :
    readRun (.name fields stack) (field name m) =
      some (.item (.object (fields ++ [(name, w)])) stack) := h (.object fields name :: stack)

theorem object {name : α → Text τ} (h : ∀ a ∈ l, Reads (item a) (v a)) :
    Reads (.beginObject :: (separated (fun a => field (name a) (item a)) l ++ [.endObject]))
      (.object (l.map (fun a => (name a, v a)))) := by
  intro stack
  change readRun ((Partial.object (List.map (fun a => (name a, v a)) [])).next stack) _ = _
  rw [readRun_append]
  by_cases hl : l = []
  · rw [hl]
    rfl
  · rw [readRun_separated (fun a => field (name a) (item a))
      (fun m => .object (m.map (fun a => (name a, v a)))) stack hl]
    · rfl
    · intro m a ha
      change readRun (.value (.object (m.map (fun a => (name a, v a))) (name a) :: stack)) _ = _
      rw [h a ha, List.map_append]
      rfl

end Reads

end JsonText
