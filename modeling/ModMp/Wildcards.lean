import Mathlib.Tactic

/-!
# Patterns with wildcards

A pattern is a list of symbols: a letter stands for itself, `one` for any letter, and `any` for any
sequence of letters. What a pattern matches has each letter at least as often as the pattern, and it
always matches its own letters with a filler for each `one`.
-/

namespace Wildcards

variable {α : Type}

inductive Symbol (α : Type)
  | letter (a : α)
  | one
  | any
  deriving DecidableEq

inductive Matches : List (Symbol α) → List α → Prop
  | nil : Matches [] []
  | letter (a : α) {p : List (Symbol α)} {v : List α} (h : Matches p v) :
      Matches (.letter a :: p) (a :: v)
  | one (a : α) {p : List (Symbol α)} {v : List α} (h : Matches p v) :
      Matches (.one :: p) (a :: v)
  | skip {p : List (Symbol α)} {v : List α} (h : Matches p v) : Matches (.any :: p) v
  | more (a : α) {p : List (Symbol α)} {v : List α} (h : Matches (.any :: p) v) :
      Matches (.any :: p) (a :: v)

theorem matches_letters_iff {l v : List α} : Matches (l.map .letter) v ↔ v = l := by
  induction l generalizing v with
  | nil =>
      constructor
      · intro h
        cases h
        rfl
      · rintro rfl
        exact .nil
  | cons a l ih =>
      constructor
      · intro h
        cases h with
        | letter _ h => rw [ih.mp h]
      · rintro rfl
        exact .letter a (ih.mpr rfl)

theorem Matches.count_le [DecidableEq α] {p : List (Symbol α)} {v : List α} (h : Matches p v)
    (a : α) : p.count (.letter a) ≤ v.count a := by
  induction h with
  | nil => exact Nat.zero_le _
  | letter b h ih =>
      by_cases hb : b = a
      · rw [hb, List.count_cons_self, List.count_cons_self]
        exact Nat.succ_le_succ ih
      · have hletter : (Symbol.letter b : Symbol α) ≠ .letter a := by simpa using hb
        rwa [List.count_cons_of_ne hletter, List.count_cons_of_ne hb]
  | one b h ih =>
      rw [List.count_cons_of_ne (by simp)]
      exact ih.trans (List.count_le_count_cons)
  | skip h ih => rwa [List.count_cons_of_ne (by simp)]
  | more b h ih => exact ih.trans (List.count_le_count_cons)

/-- The letters of a pattern, and a filler for each `one`. -/
def fill (filler : α) (p : List (Symbol α)) : List α :=
  p.flatMap (fun
    | .letter a => [a]
    | .one => [filler]
    | .any => [])

theorem matches_fill (filler : α) (p : List (Symbol α)) : Matches p (fill filler p) := by
  induction p with
  | nil => exact .nil
  | cons s p ih =>
      cases s with
      | letter a => exact .letter a ih
      | one => exact .one filler ih
      | any => exact .skip ih

theorem mem_fill {filler a : α} {p : List (Symbol α)} (h : a ∈ fill filler p) :
    a = filler ∨ .letter a ∈ p := by
  obtain ⟨s, hs, ha⟩ := List.mem_flatMap.mp h
  cases s with
  | letter b => exact .inr (List.mem_singleton.mp ha ▸ hs)
  | one => exact .inl (List.mem_singleton.mp ha)
  | any => exact absurd ha List.not_mem_nil

end Wildcards
