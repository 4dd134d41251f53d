import Mathlib.Data.Fintype.Card
import Mathlib.Tactic

/-!
# Tickets of a shared counter

A counter hands out consecutive numbers, one for each take. The tickets held at any time are
exactly the numbers between its first value and its present one, each held once. So the counter
has advanced by the number of holders, and when every party holds a ticket the parties and the
numbers correspond one to one.
-/

namespace Tickets

/-- The counter and the ticket of each party, from a first value on. -/
structure Issue (ι : Type) (base : ℕ) where
  next : ℕ
  ticket : ι → Option ℕ
  injective : ∀ i j e, ticket i = some e → ticket j = some e → i = j
  issued : ∀ e, (∃ i, ticket i = some e) ↔ base ≤ e ∧ e < next
  base_le : base ≤ next

variable {ι : Type} {base : ℕ}

def Issue.start (ι : Type) (base : ℕ) : Issue ι base where
  next := base
  ticket _ := none
  injective _ _ _ h := by simp at h
  issued e := by
    simp only [reduceCtorEq, exists_false, false_iff, not_and, not_lt]
    exact id
  base_le := le_rfl

variable (t : Issue ι base)

theorem Issue.base_le_ticket {i : ι} {e : ℕ} (h : t.ticket i = some e) : base ≤ e :=
  ((t.issued e).mp ⟨i, h⟩).1

theorem Issue.ticket_lt {i : ι} {e : ℕ} (h : t.ticket i = some e) : e < t.next :=
  ((t.issued e).mp ⟨i, h⟩).2

section
variable [DecidableEq ι]

/-- A party without a ticket takes the next one. -/
def Issue.take (i : ι) (hi : t.ticket i = none) : Issue ι base where
  next := t.next + 1
  ticket := Function.update t.ticket i (some t.next)
  injective j k e hj hk := by
    rw [Function.update_apply] at hj hk
    split_ifs at hj hk with hji hki hki
    · exact hji.trans hki.symm
    · cases hj
      exact absurd (t.ticket_lt hk) (lt_irrefl _)
    · cases hk
      exact absurd (t.ticket_lt hj) (lt_irrefl _)
    · exact t.injective j k e hj hk
  issued e := by
    constructor
    · rintro ⟨j, hj⟩
      rw [Function.update_apply] at hj
      split_ifs at hj with hji
      · cases hj
        exact ⟨t.base_le, Nat.lt_succ_self _⟩
      · exact ⟨t.base_le_ticket hj, Nat.lt_succ_of_lt (t.ticket_lt hj)⟩
    · rintro ⟨hle, hlt⟩
      rcases Nat.lt_succ_iff_lt_or_eq.mp hlt with hold | rfl
      · obtain ⟨j, hj⟩ := (t.issued e).mpr ⟨hle, hold⟩
        have hne : j ≠ i := by
          rintro rfl
          simp [hi] at hj
        exact ⟨j, (Function.update_of_ne hne _ _).trans hj⟩
      · exact ⟨i, Function.update_self _ _ _⟩
  base_le := t.base_le.trans (Nat.le_succ _)

variable {i j : ι} (hi : t.ticket i = none)

theorem Issue.take_ticket_self : (t.take i hi).ticket i = some t.next := Function.update_self _ _ _

theorem Issue.take_ticket_of_ne (hj : j ≠ i) : (t.take i hi).ticket j = t.ticket j :=
  Function.update_of_ne hj _ _

end

/-- Parties that all hold tickets correspond one to one to the numbers handed out. -/
theorem Issue.bijOn {slot : ι → ℕ} (hslot : ∀ i, t.ticket i = some (slot i)) :
    Set.BijOn slot Set.univ (Set.Ico base t.next) := by
  refine ⟨?_, ?_, ?_⟩
  · intro i _
    exact (t.issued (slot i)).mp ⟨i, hslot i⟩
  · intro i _ j _ heq
    exact t.injective i j (slot i) (hslot i) (heq ▸ hslot j)
  · intro e he
    obtain ⟨i, hi⟩ := (t.issued e).mpr he
    exact ⟨i, trivial, Option.some.inj ((hslot i).symm.trans hi)⟩

variable [Fintype ι]

def Issue.holders : Finset ι := Finset.univ.filter (fun i => (t.ticket i).isSome)

theorem Issue.mem_holders {i : ι} : i ∈ t.holders ↔ ∃ e, t.ticket i = some e := by
  rw [Issue.holders, Finset.mem_filter, and_iff_right (Finset.mem_univ i), Option.isSome_iff_exists]

theorem Issue.next_eq : t.next = base + t.holders.card := by
  have himage : t.holders.image (fun i => (t.ticket i).getD 0) = Finset.Ico base t.next := by
    ext e
    rw [Finset.mem_image, Finset.mem_Ico, ← t.issued e]
    constructor
    · rintro ⟨i, hi, rfl⟩
      obtain ⟨e, he⟩ := t.mem_holders.mp hi
      exact ⟨i, by rw [he, Option.getD_some]⟩
    · rintro ⟨i, hi⟩
      exact ⟨i, t.mem_holders.mpr ⟨e, hi⟩, by rw [hi, Option.getD_some]⟩
  have hinj : Set.InjOn (fun i => (t.ticket i).getD 0) t.holders := by
    intro i hi j hj heq
    obtain ⟨e, he⟩ := t.mem_holders.mp hi
    obtain ⟨f, hf⟩ := t.mem_holders.mp hj
    simp only [he, hf, Option.getD_some] at heq
    exact t.injective i j e he (heq ▸ hf)
  have hcard := Finset.card_image_of_injOn hinj
  rw [himage, Nat.card_Ico] at hcard
  have hle := t.base_le
  omega

theorem Issue.next_lt_of_free {i : ι} (hi : t.ticket i = none) :
    t.next < base + Fintype.card ι := by
  have hproper : t.holders ⊂ Finset.univ := by
    apply Finset.ssubset_univ_iff.mpr
    intro huniv
    obtain ⟨e, he⟩ := t.mem_holders.mp (huniv ▸ Finset.mem_univ i)
    rw [hi] at he
    cases he
  have hlt := Finset.card_lt_card hproper
  rw [t.next_eq]
  exact Nat.add_lt_add_left hlt base

theorem Issue.next_eq_of_forall (hall : ∀ i, ∃ e, t.ticket i = some e) :
    t.next = base + Fintype.card ι := by
  have huniv : t.holders = Finset.univ := by
    ext i
    simp only [t.mem_holders, hall i, Finset.mem_univ]
  rw [t.next_eq, huniv, Finset.card_univ]

end Tickets
