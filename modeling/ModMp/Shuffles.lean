import Mathlib.Data.List.Perm.Basic
import Mathlib.Tactic

/-!
# The inside-out shuffle

A list is shuffled while it is read. A new entry goes to a chosen place, and the entry that was
there goes to the end. Choices of places up to the end give every ordering of the entries. Each
ordering of distinct entries comes from one sequence of choices only, since the last entry is found
where it was put, and taking it out leaves the ordering before.
-/

namespace Shuffles

variable {α : Type}

/-- The entry at `r` moves to the end, and `x` takes its place. -/
def insideOut (l : List α) (x : α) (r : ℕ) : List α := (l ++ [l[r]?.getD x]).set r x

theorem insideOut_of_lt (x : α) {l : List α} {r : ℕ} (h : r < l.length) :
    insideOut l x r = l.set r x ++ [l[r]] := by
  rw [insideOut, List.set_append_left _ _ h, List.getElem?_eq_getElem h]
  rfl

theorem insideOut_length (l : List α) (x : α) : insideOut l x l.length = l ++ [x] := by
  rw [insideOut, List.set_append_right _ _ le_rfl, Nat.sub_self]
  rfl

@[simp] theorem length_insideOut (l : List α) (x : α) (r : ℕ) :
    (insideOut l x r).length = l.length + 1 := by
  simp [insideOut]

theorem getElem?_insideOut (x : α) {l : List α} {r : ℕ} (h : r ≤ l.length) :
    (insideOut l x r)[r]? = some x := by
  rw [insideOut, List.getElem?_set_self]
  rw [List.length_append, List.length_singleton]
  exact Nat.lt_succ_of_le h

theorem perm_insideOut (x : α) {l : List α} {r : ℕ} (h : r ≤ l.length) :
    (insideOut l x r).Perm (l ++ [x]) := by
  rcases h.lt_or_eq with hlt | rfl
  · rw [insideOut_of_lt x hlt]
    have hset := (List.set_perm_cons_eraseIdx hlt x).append_right [l[r]]
    have hmove : (x :: l.eraseIdx r ++ [l[r]]).Perm (x :: l) :=
      ((List.perm_append_singleton l[r] (l.eraseIdx r)).trans
        (List.getElem_cons_eraseIdx_perm hlt)).cons x
    exact (hset.trans hmove).trans (List.perm_append_singleton x l).symm
  · rw [insideOut_length]

theorem undo_insideOut (x : α) {l : List α} {r : ℕ} (h : r ≤ l.length) :
    ((insideOut l x r).set r ((insideOut l x r).getLastD x)).dropLast = l := by
  rcases h.lt_or_eq with hlt | rfl
  · have hset : r < (l.set r x).length := by rwa [List.length_set]
    rw [insideOut_of_lt x hlt, List.getLastD_concat, List.set_append_left _ _ hset,
      List.dropLast_concat, List.set_set, List.set_getElem_self]
  · rw [insideOut_length, List.getLastD_concat, List.set_append_right _ _ le_rfl, Nat.sub_self,
      List.set_cons_zero, List.dropLast_concat]

/-- Among distinct entries the step determines the place and the list before. -/
theorem insideOut_injective {x : α} {l l' : List α} {r r' : ℕ} (hnodup : (l ++ [x]).Nodup)
    (h : r ≤ l.length) (h' : r' ≤ l'.length) (heq : insideOut l x r = insideOut l' x r') :
    r = r' ∧ l = l' := by
  have hdistinct : (insideOut l x r).Nodup := (perm_insideOut x h).nodup_iff.mpr hnodup
  have hlt : r < (insideOut l x r).length := by
    rw [length_insideOut]
    exact Nat.lt_succ_of_le h
  have hplace : (insideOut l x r)[r]? = (insideOut l x r)[r']? := by
    rw [getElem?_insideOut x h, heq, getElem?_insideOut x h']
  have hr : r = r' := (List.getElem?_inj hlt hdistinct).mp hplace
  refine ⟨hr, ?_⟩
  subst hr
  rw [← undo_insideOut x h, heq, undo_insideOut x h']

theorem exists_insideOut {x : α} {m l₀ : List α} (h : m.Perm (l₀ ++ [x])) :
    ∃ l r, l.Perm l₀ ∧ r ≤ l.length ∧ insideOut l x r = m := by
  have hmem : x ∈ m := h.mem_iff.mpr (List.mem_append_right _ (List.mem_singleton_self x))
  have hstep : ∃ l r, r ≤ l.length ∧ insideOut l x r = m := by
    obtain ⟨u, v, rfl⟩ := List.append_of_mem hmem
    rcases List.eq_nil_or_concat v with rfl | ⟨v, y, rfl⟩
    · exact ⟨u, u.length, le_rfl, insideOut_length u x⟩
    · refine ⟨u ++ y :: v, u.length, by simp, ?_⟩
      rw [insideOut_of_lt x (by simp)]
      simp
  obtain ⟨l, r, hr, hm⟩ := hstep
  refine ⟨l, r, ?_, hr, hm⟩
  rw [← hm] at h
  exact (List.perm_append_right_iff [x]).mp ((perm_insideOut x hr).symm.trans h)

/-- The list shuffled into `l`, with one choice for each length. -/
def shuffleInto (r : ℕ → ℕ) : List α → List α → List α
  | l, [] => l
  | l, x :: xs => shuffleInto r (insideOut l x (r l.length)) xs

theorem length_shuffleInto (r : ℕ → ℕ) (l xs : List α) :
    (shuffleInto r l xs).length = l.length + xs.length := by
  induction xs generalizing l with
  | nil => rfl
  | cons x xs ih =>
      rw [shuffleInto, ih, length_insideOut, List.length_cons]
      omega

theorem shuffleInto_concat (r : ℕ → ℕ) (l xs : List α) (x : α) :
    shuffleInto r l (xs ++ [x]) =
      insideOut (shuffleInto r l xs) x (r (l.length + xs.length)) := by
  induction xs generalizing l with
  | nil => rfl
  | cons y xs ih =>
      rw [List.cons_append, shuffleInto, ih, length_insideOut, shuffleInto, List.length_cons]
      congr 2
      omega

theorem shuffleInto_congr {r r' : ℕ → ℕ} {l xs : List α}
    (h : ∀ i < l.length + xs.length, r i = r' i) : shuffleInto r l xs = shuffleInto r' l xs := by
  induction xs generalizing l with
  | nil => rfl
  | cons x xs ih =>
      rw [List.length_cons] at h
      rw [shuffleInto, shuffleInto, h l.length (by omega)]
      apply ih
      intro i hi
      rw [length_insideOut] at hi
      exact h i (by omega)

section Orderings
variable {r r' : ℕ → ℕ} (hr : ∀ i, r i ≤ i)

include hr

theorem perm_shuffleInto (l xs : List α) : (shuffleInto r l xs).Perm (l ++ xs) := by
  induction xs generalizing l with
  | nil => rw [shuffleInto, List.append_nil]
  | cons x xs ih =>
      refine (ih _).trans ?_
      rw [List.append_cons]
      exact (perm_insideOut x (hr l.length)).append_right xs

/-- Distinct entries in the same ordering were given the same choices. -/
theorem shuffleInto_injective (hr' : ∀ i, r' i ≤ i) {xs : List α} (hnodup : xs.Nodup)
    (h : shuffleInto r [] xs = shuffleInto r' [] xs) : ∀ i < xs.length, r i = r' i := by
  induction xs using List.reverseRecOn with
  | nil => simp
  | append_singleton xs x ih =>
      rw [shuffleInto_concat, shuffleInto_concat, List.length_nil, zero_add] at h
      have hlength := length_shuffleInto r [] xs
      have hlength' := length_shuffleInto r' [] xs
      rw [List.length_nil, zero_add] at hlength hlength'
      have hdistinct : (shuffleInto r [] xs ++ [x]).Nodup :=
        ((perm_shuffleInto hr [] xs).append_right [x]).nodup_iff.mpr hnodup
      obtain ⟨hlast, hbefore⟩ := insideOut_injective hdistinct (by rw [hlength]; exact hr _)
        (by rw [hlength']; exact hr' _) h
      intro i hi
      rw [List.length_append, List.length_singleton, Nat.lt_succ_iff_lt_or_eq] at hi
      rcases hi with hi | rfl
      · exact ih hnodup.of_append_left hbefore i hi
      · exact hlast

end Orderings

theorem exists_shuffleInto {m xs : List α} (h : m.Perm xs) :
    ∃ r : ℕ → ℕ, (∀ i, r i ≤ i) ∧ shuffleInto r [] xs = m := by
  induction xs using List.reverseRecOn generalizing m with
  | nil => exact ⟨id, fun _ => le_rfl, h.eq_nil.symm⟩
  | append_singleton xs x ih =>
      obtain ⟨l, place, hl, hplace, hm⟩ := exists_insideOut h
      obtain ⟨r, hr, hshuffle⟩ := ih hl
      have hlength : l.length = xs.length := hl.length_eq
      refine ⟨Function.update r xs.length place, fun i => ?_, ?_⟩
      · by_cases hi : i = xs.length
        · rw [hi, Function.update_self, ← hlength]
          exact hplace
        · rw [Function.update_of_ne hi]
          exact hr i
      · have hcongr : shuffleInto (Function.update r xs.length place) [] xs = l := by
          rw [← hshuffle]
          apply shuffleInto_congr
          intro i hi
          rw [List.length_nil, zero_add] at hi
          exact Function.update_of_ne hi.ne _ _
        rw [shuffleInto_concat, hcongr, List.length_nil, zero_add, Function.update_self, hm]

end Shuffles
