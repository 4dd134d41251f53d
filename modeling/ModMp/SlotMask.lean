import Mathlib.Data.BitVec
import Mathlib.Tactic

/-!
# Sets of slots in a machine word

A word of `w` bits is a set of slots, numbered from the most significant bit. The flag of a slot
sets or clears it, and counting leading zeros finds the first slot of a set that is not empty.
-/

namespace SlotMask

variable {w : ℕ}

def flag (i : Fin w) : BitVec w := 1#w <<< (w - 1 - i)

def Has (m : BitVec w) (i : Fin w) : Prop := m.getMsbD i = true

instance (m : BitVec w) (i : Fin w) : Decidable (Has m i) := inferInstanceAs (Decidable (_ = _))

theorem ext_has {m m' : BitVec w} (h : ∀ i, Has m i ↔ Has m' i) : m = m' := by
  apply BitVec.eq_of_getMsbD_eq
  intro i hi
  exact Bool.eq_iff_iff.mpr (h ⟨i, hi⟩)

theorem has_flag (i j : Fin w) : Has (flag i) j ↔ j = i := by
  unfold Has flag
  rw [BitVec.getMsbD_shiftLeft, BitVec.getMsbD_one, Fin.ext_iff]
  have hi := i.isLt
  have hj := j.isLt
  simp only [Bool.and_eq_true, decide_eq_true_eq]
  omega

@[simp] theorem has_zero (i : Fin w) : ¬ Has 0#w i := by
  simp [Has]

@[simp] theorem has_or (m m' : BitVec w) (i : Fin w) : Has (m ||| m') i ↔ Has m i ∨ Has m' i := by
  simp [Has]

@[simp] theorem has_and (m m' : BitVec w) (i : Fin w) : Has (m &&& m') i ↔ Has m i ∧ Has m' i := by
  simp [Has]

@[simp] theorem has_not (m : BitVec w) (i : Fin w) : Has (~~~m) i ↔ ¬ Has m i := by
  simp [Has]

theorem has_insert (m : BitVec w) (i j : Fin w) : Has (m ||| flag i) j ↔ Has m j ∨ j = i := by
  rw [has_or, has_flag]

theorem has_erase (m : BitVec w) (i j : Fin w) : Has (m &&& ~~~flag i) j ↔ Has m j ∧ j ≠ i := by
  rw [has_and, has_not, has_flag]

theorem eq_zero_iff (m : BitVec w) : m = 0#w ↔ ∀ i, ¬ Has m i := by
  constructor
  · rintro rfl i
    exact has_zero i
  · intro h
    exact ext_has (fun i => iff_of_false (h i) (has_zero i))

theorem clz_lt {m : BitVec w} (h : m ≠ 0#w) : m.clz.toNat < w := by
  have hlt := BitVec.clz_lt_iff_ne_zero.mpr h
  rw [BitVec.lt_def, BitVec.natCast_eq_ofNat, BitVec.toNat_ofNat] at hlt
  exact hlt.trans_le (Nat.mod_le _ _)

/-- The number of leading zeros, as a slot. -/
def first (m : BitVec w) (h : m ≠ 0#w) : Fin w := ⟨m.clz.toNat, clz_lt h⟩

theorem has_first {m : BitVec w} (h : m ≠ 0#w) : Has m (first m h) := by
  have hlt := clz_lt h
  have hbit := BitVec.getLsbD_true_clz_of_ne_zero (by omega) h
  unfold Has first
  rw [BitVec.getMsbD, decide_eq_true hlt, Bool.true_and]
  exact hbit

theorem toNat_erase_lt {m : BitVec w} {i : Fin w} (h : Has m i) :
    (m &&& ~~~flag i).toNat < m.toNat := by
  have hle : (m &&& ~~~flag i).toNat ≤ m.toNat := by
    rw [BitVec.toNat_and]
    exact Nat.and_le_left
  apply lt_of_le_of_ne hle
  intro heq
  have hmem := (has_erase m i i).mp ((BitVec.eq_of_toNat_eq heq).symm ▸ h)
  exact hmem.2 rfl

theorem first_le {m : BitVec w} (h : m ≠ 0#w) {i : Fin w} (hi : Has m i) : first m h ≤ i := by
  by_contra hlt
  have hbefore : i.val < m.clz.toNat := not_le.mp hlt
  unfold Has at hi
  rw [BitVec.getMsbD_eq_getLsbD, Bool.and_eq_true, decide_eq_true_eq] at hi
  have hge : 2 ^ (w - 1 - i.val) ≤ m.toNat := Nat.ge_two_pow_of_testBit hi.2
  have hpow : 2 ^ (w - m.clz.toNat) ≤ 2 ^ (w - 1 - i.val) :=
    Nat.pow_le_pow_right (by decide) (by omega)
  exact absurd BitVec.toNat_lt_two_pow_sub_clz (not_lt.mpr (hpow.trans hge))

/-- The slots of the set, in increasing order. -/
def slots (m : BitVec w) : List (Fin w) := (List.finRange w).filter (fun i => Has m i)

theorem mem_slots {m : BitVec w} {i : Fin w} : i ∈ slots m ↔ Has m i := by
  rw [slots, List.mem_filter, decide_eq_true_eq, and_iff_right (List.mem_finRange i)]

theorem slots_sorted (m : BitVec w) : (slots m).Pairwise (· < ·) :=
  (List.pairwise_lt_finRange w).filter _

@[simp] theorem slots_zero : slots 0#w = [] := by
  rw [List.eq_nil_iff_forall_not_mem]
  intro i hi
  exact has_zero i (mem_slots.mp hi)

theorem slots_eq_cons {m : BitVec w} (h : m ≠ 0#w) :
    slots m = first m h :: slots (m &&& ~~~flag (first m h)) := by
  have hsorted : (first m h :: slots (m &&& ~~~flag (first m h))).Pairwise (· < ·) := by
    refine List.pairwise_cons.mpr ⟨?_, slots_sorted _⟩
    intro i hi
    obtain ⟨hmem, hne⟩ := (has_erase _ _ _).mp (mem_slots.mp hi)
    exact lt_of_le_of_ne (first_le h hmem) (Ne.symm hne)
  apply (slots_sorted m).eq_of_mem_iff hsorted
  intro i
  rw [List.mem_cons, mem_slots, mem_slots, has_erase]
  constructor
  · intro hi
    by_cases hfirst : i = first m h
    · exact .inl hfirst
    · exact .inr ⟨hi, hfirst⟩
  · rintro (rfl | hi)
    · exact has_first h
    · exact hi.1

end SlotMask
