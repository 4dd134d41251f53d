import ModMp.CString

/-!
# Double-quoted SQL literals

The scanner of MySQL reads a double-quoted literal from left to right: a backslash takes the next
byte with it, and two adjacent quotes stand for one. `Body` is the grammar of the text between the
quotes. Wrapping a text in quotes gives one literal exactly when the text is a body.
-/

namespace SqlLiteral
open CLib

/-- What follows the closing quote, read from inside the literal; `none` if it never closes. -/
def afterClose : Bytes → Option Bytes
  | [] => none
  | b :: text =>
      if b = backslash then
        match text with
        | [] => none
        | _ :: rest => afterClose rest
      else if b = quote then
        match text with
        | [] => some []
        | c :: rest => if c = quote then afterClose rest else some (c :: rest)
      else afterClose text

/-- The text is one literal, which ends at its last byte. -/
def IsLiteral (text : Bytes) : Prop := ∃ body, text = quote :: body ∧ afterClose body = some []

/-- Plain bytes, a backslash with any byte after it, and doubled quotes. -/
inductive Body : Bytes → Prop
  | nil : Body []
  | plain {b : UInt8} {body : Bytes} (hq : b ≠ quote) (hs : b ≠ backslash) (h : Body body) :
      Body (b :: body)
  | escaped (b : UInt8) {body : Bytes} (h : Body body) : Body (backslash :: b :: body)
  | doubled {body : Bytes} (h : Body body) : Body (quote :: quote :: body)

theorem afterClose_backslash (b : UInt8) (text : Bytes) :
    afterClose (backslash :: b :: text) = afterClose text := by
  rw [afterClose.eq_def]
  rfl

theorem afterClose_plain {b : UInt8} (hq : b ≠ quote) (hs : b ≠ backslash) (text : Bytes) :
    afterClose (b :: text) = afterClose text := by
  rw [afterClose.eq_def]
  simp only [hq, hs, if_false]

theorem afterClose_quote (c : UInt8) (text : Bytes) :
    afterClose (quote :: c :: text) =
      if c = quote then afterClose text else some (c :: text) := by
  rw [afterClose.eq_def]
  rfl

theorem body_backslash_iff (b : UInt8) (body : Bytes) :
    Body (backslash :: b :: body) ↔ Body body := by
  constructor
  · intro h
    cases h with
    | plain _ hs _ => exact absurd rfl hs
    | escaped _ h => exact h
  · exact Body.escaped b

theorem body_plain_iff {b : UInt8} (hq : b ≠ quote) (hs : b ≠ backslash) (body : Bytes) :
    Body (b :: body) ↔ Body body := by
  constructor
  · intro h
    cases h with
    | plain _ _ h => exact h
    | escaped _ _ => exact absurd rfl hs
    | doubled _ => exact absurd rfl hq
  · exact Body.plain hq hs

theorem body_quote_iff (c : UInt8) (body : Bytes) :
    Body (quote :: c :: body) ↔ c = quote ∧ Body body := by
  constructor
  · intro h
    cases h with
    | plain hq _ _ => exact absurd rfl hq
    | doubled h => exact ⟨rfl, h⟩
  · rintro ⟨rfl, h⟩
    exact h.doubled

theorem not_body_singleton {b : UInt8} (hb : b = quote ∨ b = backslash) : ¬ Body [b] := by
  intro h
  cases h with
  | plain hq hs _ => exact hb.elim hq hs

/-- The quote appended to a text closes the literal exactly when the text is a body. -/
theorem afterClose_append_quote_iff (body : Bytes) :
    afterClose (body ++ [quote]) = some [] ↔ Body body := by
  induction body using List.twoStepInduction with
  | nil => exact ⟨fun _ => .nil, fun _ => rfl⟩
  | singleton b =>
      by_cases hb : b = quote ∨ b = backslash
      · have hnone : afterClose ([b] ++ [quote]) = none := by rcases hb with rfl | rfl <;> rfl
        rw [hnone]
        exact ⟨fun h => absurd h (by simp), fun h => absurd h (not_body_singleton hb)⟩
      · obtain ⟨hq, hs⟩ := not_or.mp hb
        rw [List.singleton_append, afterClose_plain hq hs, body_plain_iff hq hs]
        exact ⟨fun _ => .nil, fun _ => rfl⟩
  | cons_cons b c body ih ihc =>
      by_cases hs : b = backslash
      · rw [hs, List.cons_append, List.cons_append, afterClose_backslash, body_backslash_iff, ih]
      · by_cases hq : b = quote
        · rw [hq, List.cons_append, List.cons_append, afterClose_quote, body_quote_iff]
          by_cases hc : c = quote
          · rw [if_pos hc, ih, and_iff_right hc]
          · rw [if_neg hc]
            exact ⟨fun h => absurd h (by simp), fun h => absurd h.1 hc⟩
        · rw [List.cons_append, afterClose_plain hq hs, body_plain_iff hq hs]
          exact ihc c

theorem isLiteral_quoted_iff (body : Bytes) :
    IsLiteral (quote :: (body ++ [quote])) ↔ Body body := by
  rw [← afterClose_append_quote_iff]
  constructor
  · rintro ⟨text, htext, h⟩
    rw [(List.cons.inj htext).2]
    exact h
  · exact fun h => ⟨_, rfl, h⟩

instance (body : Bytes) : Decidable (Body body) :=
  decidable_of_iff _ (afterClose_append_quote_iff body)

theorem body_map_iff {f : UInt8 → UInt8} (hq : ∀ b, f b = quote ↔ b = quote)
    (hs : ∀ b, f b = backslash ↔ b = backslash) (body : Bytes) : Body (body.map f) ↔ Body body := by
  have hfq : f quote = quote := (hq quote).mpr rfl
  have hfs : f backslash = backslash := (hs backslash).mpr rfl
  induction body using List.twoStepInduction with
  | nil => rfl
  | singleton b =>
      by_cases hb : b = quote ∨ b = backslash
      · have hfb : f b = quote ∨ f b = backslash := hb.imp (hq b).mpr (hs b).mpr
        exact ⟨fun h => absurd h (not_body_singleton hfb),
          fun h => absurd h (not_body_singleton hb)⟩
      · obtain ⟨hbq, hbs⟩ := not_or.mp hb
        rw [List.map_singleton, body_plain_iff hbq hbs,
          body_plain_iff (mt (hq b).mp hbq) (mt (hs b).mp hbs)]
  | cons_cons b c body ih ihc =>
      by_cases hbs : b = backslash
      · rw [hbs, List.map_cons, List.map_cons, hfs, body_backslash_iff, body_backslash_iff]
        exact ih
      · by_cases hbq : b = quote
        · rw [hbq, List.map_cons, List.map_cons, hfq, body_quote_iff, body_quote_iff, hq]
          exact and_congr_right' ih
        · rw [List.map_cons, body_plain_iff hbq hbs,
            body_plain_iff (mt (hq b).mp hbq) (mt (hs b).mp hbs)]
          exact ihc c

end SqlLiteral
