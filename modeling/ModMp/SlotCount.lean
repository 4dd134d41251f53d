import ModMp.SlotMask

/-!
# The number of slots in a set

A word without its lowest bit is a set without its last slot, so a set has as many slots as bits can
be taken from its word, one after the other, until none is left.
-/

namespace SlotMask

theorem testBit_and_sub_one {n : ℕ} (hn : n ≠ 0) :
    ∃ k, n.testBit k = true ∧
      ∀ j, (n &&& (n - 1)).testBit j = true ↔ n.testBit j = true ∧ j ≠ k := by
  induction n using Nat.strong_induction_on with
  | _ n ih =>
      rcases Nat.even_or_odd' n with ⟨m, rfl | rfl⟩
      · have hm : m ≠ 0 := by omega
        obtain ⟨k, hk, hrest⟩ := ih m (by omega) hm
        refine ⟨k + 1, ?_, fun j => ?_⟩
        · rw [Nat.testBit_succ, Nat.mul_div_cancel_left m (by decide)]
          exact hk
        · cases j with
          | zero => simp [Nat.testBit_zero]
          | succ j =>
              have hpred : (2 * m - 1) / 2 = m - 1 := by omega
              have hstep := hrest j
              rw [Nat.testBit_and, Bool.and_eq_true] at hstep ⊢
              rw [Nat.testBit_succ, Nat.testBit_succ, Nat.mul_div_cancel_left m (by decide), hpred,
                hstep, Ne, Ne, Nat.succ_inj]
      · refine ⟨0, by simp [Nat.testBit_zero], fun j => ?_⟩
        rw [Nat.testBit_and, Bool.and_eq_true, Nat.add_sub_cancel]
        cases j with
        | zero => simp [Nat.testBit_zero]
        | succ j =>
            have hhalf : (2 * m + 1) / 2 = m := by omega
            rw [Nat.testBit_succ, Nat.testBit_succ, hhalf, Nat.mul_div_cancel_left m (by decide)]
            simp

variable {w : ℕ}

theorem has_iff_testBit (m : BitVec w) (i : Fin w) :
    Has m i ↔ m.toNat.testBit (w - 1 - i) = true := by
  rw [Has, BitVec.getMsbD_eq_getLsbD, decide_eq_true i.isLt, Bool.true_and, BitVec.getLsbD]

/-- The word without its lowest bit is the set without one of its slots. -/
theorem has_and_sub_one {m : BitVec w} (h : m ≠ 0#w) :
    ∃ i, Has m i ∧ m &&& (m - 1#w) = m &&& ~~~flag i := by
  have hpos : m.toNat ≠ 0 := fun hzero => h (BitVec.eq_of_toNat_eq hzero)
  have hone : (m - 1#w).toNat = m.toNat - 1 := by
    have hlt := m.isLt
    have htoNat : (1#w).toNat = 1 := Nat.mod_eq_of_lt (by omega)
    rw [BitVec.toNat_sub_of_le (BitVec.le_def.mpr (by omega)), htoNat]
  obtain ⟨k, hk, hrest⟩ := testBit_and_sub_one hpos
  have hkw : k < w := by
    by_contra hge
    have hlow : m.toNat < 2 ^ k :=
      m.isLt.trans_le (Nat.pow_le_pow_right (by decide) (Nat.le_of_not_lt hge))
    rw [Nat.testBit_lt_two_pow hlow] at hk
    cases hk
  have hindex : w - 1 - (w - 1 - k) = k := by omega
  refine ⟨⟨w - 1 - k, by omega⟩, ?_, ext_has fun j => ?_⟩
  · rw [has_iff_testBit]
    dsimp only
    rwa [hindex]
  · have hj := j.isLt
    have hiff : w - 1 - j.val ≠ k ↔ j ≠ ⟨w - 1 - k, by omega⟩ := by
      rw [Ne, Ne, Fin.ext_iff]
      dsimp only
      omega
    rw [has_erase, ← hiff, has_iff_testBit, has_iff_testBit, BitVec.toNat_and, hone]
    exact hrest _

theorem length_slots_erase {m : BitVec w} {i : Fin w} (h : Has m i) :
    (slots (m &&& ~~~flag i)).length + 1 = (slots m).length := by
  have hnodup : ∀ m : BitVec w, (slots m).Nodup := fun m => (slots_sorted m).imp fun hlt => hlt.ne
  have hperm : (i :: slots (m &&& ~~~flag i)).Perm (slots m) := by
    refine (List.perm_ext_iff_of_nodup (List.nodup_cons.mpr ⟨fun hmem => ?_, hnodup _⟩)
      (hnodup _)).mpr fun j => ?_
    · exact ((has_erase m i i).mp (mem_slots.mp hmem)).2 rfl
    · rw [List.mem_cons, mem_slots, mem_slots, has_erase]
      constructor
      · rintro (rfl | hj)
        · exact h
        · exact hj.1
      · intro hj
        by_cases hji : j = i
        · exact .inl hji
        · exact .inr ⟨hj, hji⟩
  exact hperm.length_eq

theorem length_slots_eq {m : BitVec w} {l : List (Fin w)} (hnodup : l.Nodup)
    (h : ∀ i, Has m i ↔ i ∈ l) : (slots m).length = l.length := by
  have hslots : (slots m).Nodup := (slots_sorted m).imp fun hlt => hlt.ne
  refine List.Perm.length_eq ((List.perm_ext_iff_of_nodup hslots hnodup).mpr fun i => ?_)
  rw [mem_slots, h]

theorem length_slots_le (m : BitVec w) : (slots m).length ≤ w :=
  (List.length_filter_le _ _).trans_eq (List.length_finRange)

end SlotMask
