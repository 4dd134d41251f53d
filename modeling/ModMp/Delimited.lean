import Mathlib.Tactic

/-!
# Lists written with a separator

A list of words is written with a separator between any two of them, and read back by splitting the
text at the separator. Reading can also skip the empty words, as a tokenizer does. A text has no
empty words exactly when its separators stand alone and inside. A prefix of a written list is a
written list again, whose last word may be cut short.
-/

namespace Delimited

variable {α : Type} {sep : α}

theorem intercalate_append {u v : List (List α)} (hu : u ≠ []) (hv : v ≠ []) :
    [sep].intercalate (u ++ v) = [sep].intercalate u ++ sep :: [sep].intercalate v := by
  induction u with
  | nil => exact absurd rfl hu
  | cons w u ih =>
      by_cases hnil : u = []
      · rw [hnil, List.singleton_append, List.intercalate_cons_of_ne_nil hv,
          List.intercalate_singleton, List.append_assoc, List.singleton_append]
      · have happend : u ++ v ≠ [] := List.append_ne_nil_of_left_ne_nil hnil v
        rw [List.cons_append, List.intercalate_cons_of_ne_nil happend, ih hnil,
          List.intercalate_cons_of_ne_nil hnil, List.append_assoc, List.append_assoc,
          List.append_assoc]

/-- The text is not empty, and no separator stands at its start, at its end or next to another. -/
def Tidy (sep : α) (l : List α) : Prop :=
  l ≠ [] ∧ l.head? ≠ some sep ∧ l.getLast? ≠ some sep ∧ ¬ [sep, sep] <:+: l

variable [DecidableEq α]

instance (sep : α) (l : List α) : Decidable (Tidy sep l) := inferInstanceAs (Decidable (_ ∧ _))

theorem not_tidy_of_nil_mem {l : List α} (h : [] ∈ l.splitOn sep) : ¬ Tidy sep l := by
  obtain ⟨u, v, huv⟩ := List.append_of_mem h
  have hl : l = [sep].intercalate (u ++ [] :: v) := by
    rw [← huv, List.intercalate_splitOn]
  rintro ⟨hne, hfirst, hlast, hdouble⟩
  by_cases hu : u = [] <;> by_cases hv : v = []
  · rw [hu, hv] at hl
    exact hne hl
  · rw [hu, List.nil_append, List.intercalate_cons_of_ne_nil hv] at hl
    rw [hl] at hfirst
    exact hfirst rfl
  · rw [hv, intercalate_append hu (List.cons_ne_nil _ _), List.intercalate_singleton] at hl
    rw [hl, List.getLast?_append_cons] at hlast
    exact hlast rfl
  · rw [intercalate_append hu (List.cons_ne_nil _ _), List.intercalate_cons_of_ne_nil hv] at hl
    exact hdouble ⟨[sep].intercalate u, [sep].intercalate v, by rw [hl]; simp⟩

theorem tidy_iff {l : List α} : Tidy sep l ↔ ∀ w ∈ l.splitOn sep, w ≠ [] := by
  constructor
  · intro h w hw hnil
    exact not_tidy_of_nil_mem (hnil ▸ hw) h
  · intro h
    refine ⟨?_, ?_, ?_, ?_⟩
    · rintro rfl
      exact h [] (by simp) rfl
    · intro hfirst
      obtain ⟨l', rfl⟩ := List.head?_eq_some_iff.mp hfirst
      refine h [] ?_ rfl
      rw [← List.nil_append (sep :: l'), List.splitOn_append_cons_self]
      simp
    · intro hlast
      obtain ⟨l', rfl⟩ := List.getLast?_eq_some_iff.mp hlast
      refine h [] ?_ rfl
      rw [List.splitOn_append_cons_self]
      simp
    · rintro ⟨u, v, rfl⟩
      refine h [] ?_ rfl
      rw [List.append_assoc, List.cons_append, List.splitOn_append_cons_self,
        List.singleton_append, ← List.nil_append (sep :: v), List.splitOn_append_cons_self]
      simp

/-- The words of a text that are not empty. -/
def pieces (sep : α) (l : List α) : List (List α) := (l.splitOn sep).filter (fun w => !w.isEmpty)

theorem pieces_intercalate {ws : List (List α)} (h : ∀ w ∈ ws, sep ∉ w) :
    pieces sep ([sep].intercalate ws) = ws.filter (fun w => !w.isEmpty) := by
  by_cases hnil : ws = []
  · rw [hnil]
    rfl
  · rw [pieces, List.splitOn_intercalate sep h hnil]

omit [DecidableEq α] in
/-- A proper prefix of a written list ends inside some word, or behind a word that is not the
last. -/
theorem take_intercalate {ws : List (List α)} {n : ℕ} (hn : n < ([sep].intercalate ws).length) :
    ∃ u w v q, ws = u ++ w :: v ∧ q <+: w ∧ (q = w → v ≠ []) ∧
      ([sep].intercalate ws).take n = [sep].intercalate (u ++ [q]) := by
  induction ws generalizing n with
  | nil => simp at hn
  | cons w ws ih =>
      by_cases hnil : ws = []
      · subst hnil
        rw [List.intercalate_singleton] at hn ⊢
        refine ⟨[], w, [], w.take n, rfl, List.take_prefix n w, ?_, ?_⟩
        · intro heq
          have hlen := congrArg List.length heq
          rw [List.length_take_of_le hn.le] at hlen
          exact absurd hlen hn.ne
        · rw [List.nil_append, List.intercalate_singleton]
      · rw [List.intercalate_cons_of_ne_nil hnil, List.append_assoc] at hn ⊢
        by_cases hle : n ≤ w.length
        · refine ⟨[], w, ws, w.take n, rfl, List.take_prefix n w, fun _ => hnil, ?_⟩
          rw [List.take_append_of_le_length hle, List.nil_append, List.intercalate_singleton]
        · obtain ⟨k, rfl⟩ := Nat.exists_eq_add_of_lt (not_le.mp hle)
          have hk : k < ([sep].intercalate ws).length := by
            rw [List.length_append, List.length_append, List.length_singleton] at hn
            omega
          obtain ⟨u, w', v, q, rfl, hq, hlast, htake⟩ := ih hk
          refine ⟨w :: u, w', v, q, rfl, hq, hlast, ?_⟩
          rw [Nat.add_assoc, List.take_length_add_append, List.singleton_append,
            List.take_succ_cons, htake, List.cons_append,
            List.intercalate_cons_of_ne_nil (List.append_ne_nil_of_right_ne_nil u (by simp)),
            List.append_assoc, List.singleton_append]

end Delimited
