import Mathlib.Data.List.GetD
import Mathlib.Tactic

/-!
# Interleaved samples

A list of samples holds groups of `c` of them, one for each channel. What a channel has is read
from each group at its place, and for a list in blocks of whole groups it is read block by block.
-/

namespace Interleave

variable {φ : Type} [Zero φ]

/-- The samples at the place `k` of each group of `c`. -/
def deinterleave (c k : ℕ) (l : List φ) : List φ :=
  (List.range (l.length / c)).map (fun j => l.getD (j * c + k) 0)

theorem length_deinterleave (c k : ℕ) (l : List φ) :
    (deinterleave c k l).length = l.length / c := by
  rw [deinterleave, List.length_map, List.length_range]

theorem place_lt {c j k n : ℕ} (hj : j < n) (hk : k < c) : j * c + k < n * c :=
  calc j * c + k < j * c + c := Nat.add_lt_add_left hk _
    _ = (j + 1) * c := (Nat.succ_mul j c).symm
    _ ≤ n * c := Nat.mul_le_mul_right c hj

theorem deinterleave_append {c k n : ℕ} (hk : k < c) {l : List φ} (hl : l.length = n * c)
    (m : List φ) : deinterleave c k (l ++ m) = deinterleave c k l ++ deinterleave c k m := by
  have hc : 0 < c := Nat.zero_lt_of_lt hk
  have hgroups : (l ++ m).length / c = n + m.length / c := by
    rw [List.length_append, hl, Nat.mul_comm, Nat.mul_add_div hc]
  rw [deinterleave, hgroups, List.range_add, List.map_append, List.map_map]
  congr 1
  · rw [deinterleave, hl, Nat.mul_div_cancel n hc]
    apply List.map_congr_left
    intro j hj
    have hlt : j * c + k < l.length := hl ▸ place_lt (List.mem_range.mp hj) hk
    exact List.getD_append l m 0 _ hlt
  · apply List.map_congr_left
    intro j _
    have hle : l.length ≤ (n + j) * c + k := by
      rw [hl, Nat.add_mul]
      omega
    rw [Function.comp_apply, List.getD_append_right l m 0 _ hle, hl, Nat.add_mul, Nat.add_assoc,
      Nat.add_sub_cancel_left]

theorem deinterleave_flatten {c k : ℕ} (hk : k < c) {blocks : List (List φ)}
    (h : ∀ l ∈ blocks, c ∣ l.length) :
    deinterleave c k blocks.flatten = blocks.flatMap (deinterleave c k) := by
  induction blocks with
  | nil =>
      rw [List.flatten_nil, deinterleave, List.length_nil, Nat.zero_div]
      rfl
  | cons l blocks ih =>
      obtain ⟨n, hn⟩ := h l List.mem_cons_self
      rw [List.flatten_cons, deinterleave_append hk (hn.trans (Nat.mul_comm c n)),
        ih (fun l hl => h l (List.mem_cons_of_mem _ hl)), List.flatMap_cons]

end Interleave
