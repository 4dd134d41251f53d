import Mathlib.Tactic

/-!
# Buffers that are filled by loops and handed out in parts

`forLoop body n` runs `body 0`, …, `body (n - 1)` one after the other on a state, and stops at the
first error. Rows are memory with two indices. A loop over a row, or a loop of such loops over
many rows, is equal to one write of the whole rectangle, and the parts of a row are lists. `reads`
is what a reader of a list gets that asks for some of it again and again.
-/

namespace Buffers

variable {ε σ φ : Type}

def forLoop (body : ℕ → σ → Except ε σ) : ℕ → σ → Except ε σ
  | 0, s => .ok s
  | n + 1, s => (forLoop body n s).bind (body n)

theorem forLoop_eq_ok (body : ℕ → σ → Except ε σ) (t : ℕ → σ) {n : ℕ}
    (h : ∀ i < n, body i (t i) = .ok (t (i + 1))) : forLoop body n (t 0) = .ok (t n) := by
  induction n with
  | zero => rfl
  | succ n ih =>
      have hn := ih (fun i hi => h i (Nat.lt_succ_of_lt hi))
      rw [forLoop, hn]
      exact h n (Nat.lt_succ_self n)

theorem forLoop_invariant {body : ℕ → σ → Except ε σ} (I : ℕ → σ → Prop) {n : ℕ} {s : σ}
    (hstart : I 0 s) (hstep : ∀ i < n, ∀ t, I i t → ∃ u, body i t = .ok u ∧ I (i + 1) u) :
    ∃ t, forLoop body n s = .ok t ∧ I n t := by
  induction n with
  | zero => exact ⟨s, rfl, hstart⟩
  | succ n ih =>
      obtain ⟨t, ht, hI⟩ := ih (fun i hi => hstep i (Nat.lt_succ_of_lt hi))
      obtain ⟨u, hu, hI'⟩ := hstep n (Nat.lt_succ_self n) t hI
      exact ⟨u, by rw [forLoop, ht]; exact hu, hI'⟩

theorem forLoop_of_forLoop {δ : Type} {body : ℕ → σ → Except ε σ} {body' : ℕ → σ → Except δ σ}
    (h : ∀ i s t, body i s = .ok t → body' i s = .ok t) {n : ℕ} {s t : σ}
    (hloop : forLoop body n s = .ok t) : forLoop body' n s = .ok t := by
  induction n generalizing t with
  | zero =>
      cases hloop
      rfl
  | succ n ih =>
      rw [forLoop] at hloop
      cases hinit : forLoop body n s with
      | error fault =>
          rw [hinit] at hloop
          cases hloop
      | ok u =>
          rw [hinit] at hloop
          rw [forLoop, ih hinit]
          exact h n u t hloop

abbrev Rows (φ : Type) := ℕ → ℕ → φ

namespace Rows

def set (b : Rows φ) (i j : ℕ) (x : φ) : Rows φ :=
  fun k l => if k = i ∧ l = j then x else b k l

/-- Cells `start`, …, `start + n - 1` of each of the first `rows` rows are written. -/
def write (b : Rows φ) (rows start n : ℕ) (x : ℕ → ℕ → φ) : Rows φ :=
  fun k l => if k < rows ∧ start ≤ l ∧ l < start + n then x k (l - start) else b k l

def writeRow (b : Rows φ) (i start n : ℕ) (x : ℕ → φ) : Rows φ :=
  fun k l => if k = i ∧ start ≤ l ∧ l < start + n then x (l - start) else b k l

def part (b : Rows φ) (i start n : ℕ) : List φ := (List.range n).map (fun j => b i (j + start))

theorem writeRow_zero (b : Rows φ) (i start : ℕ) (x : ℕ → φ) : b.writeRow i start 0 x = b := by
  funext k l
  exact if_neg (by omega)

theorem write_zero (b : Rows φ) (start n : ℕ) (x : ℕ → ℕ → φ) : b.write 0 start n x = b := by
  funext k l
  exact if_neg (by omega)

theorem writeRow_succ (b : Rows φ) (i start n : ℕ) (x : ℕ → φ) :
    (b.writeRow i start n x).set i (n + start) (x n) = b.writeRow i start (n + 1) x := by
  funext k l
  rw [set]
  by_cases hk : k = i ∧ l = n + start
  · rw [if_pos hk, writeRow, if_pos (by omega), hk.2, Nat.add_sub_cancel]
  · rw [if_neg hk, writeRow, writeRow]
    by_cases hl : k = i ∧ start ≤ l ∧ l < start + n
    · rw [if_pos hl, if_pos (by omega)]
    · rw [if_neg hl, if_neg (by omega)]

theorem write_succ (b : Rows φ) (i start n : ℕ) (x : ℕ → ℕ → φ) :
    (b.write i start n x).writeRow i start n (x i) = b.write (i + 1) start n x := by
  funext k l
  rw [writeRow]
  by_cases hk : k = i ∧ start ≤ l ∧ l < start + n
  · rw [if_pos hk, write, if_pos (by omega), hk.1]
  · rw [if_neg hk, write, write]
    by_cases hl : k < i ∧ start ≤ l ∧ l < start + n
    · rw [if_pos hl, if_pos (by omega)]
    · rw [if_neg hl, if_neg (by omega)]

theorem forLoop_set (get : ℕ → Except ε φ) (x : ℕ → φ) {n : ℕ} (b : Rows φ) (i start : ℕ)
    (hget : ∀ j < n, get j = .ok (x j)) :
    forLoop (fun j b => (get j).map (Rows.set b i (j + start))) n b =
      .ok (b.writeRow i start n x) := by
  have hstep : ∀ j < n, (get j).map (Rows.set (b.writeRow i start j x) i (j + start)) =
      .ok (b.writeRow i start (j + 1) x) := by
    intro j hj
    rw [hget j hj, ← writeRow_succ]
    rfl
  have h := forLoop_eq_ok (fun j b => (get j).map (Rows.set b i (j + start)))
    (fun j => b.writeRow i start j x) hstep
  rwa [writeRow_zero] at h

theorem forLoop_writeRow (body : ℕ → Rows φ → Except ε (Rows φ)) (x : ℕ → ℕ → φ)
    {rows start n : ℕ} (b : Rows φ)
    (hbody : ∀ i < rows, ∀ b, body i b = .ok (Rows.writeRow b i start n (x i))) :
    forLoop body rows b = .ok (b.write rows start n x) := by
  have hstep : ∀ i < rows, body i (b.write i start n x) = .ok (b.write (i + 1) start n x) := by
    intro i hi
    rw [hbody i hi, write_succ]
  have h := forLoop_eq_ok body (fun i => b.write i start n x) hstep
  rwa [write_zero] at h

def writeColumn (b : Rows φ) (rows j : ℕ) (x : ℕ → φ) : Rows φ :=
  fun k l => if k < rows ∧ l = j then x k else b k l

theorem writeColumn_zero (b : Rows φ) (j : ℕ) (x : ℕ → φ) : b.writeColumn 0 j x = b := by
  funext k l
  exact if_neg (by omega)

theorem writeColumn_succ (b : Rows φ) (i j : ℕ) (x : ℕ → φ) :
    (b.writeColumn i j x).set i j (x i) = b.writeColumn (i + 1) j x := by
  funext k l
  rw [set]
  by_cases hk : k = i ∧ l = j
  · rw [if_pos hk, writeColumn, if_pos (by omega), hk.1]
  · rw [if_neg hk, writeColumn, writeColumn]
    by_cases hl : k < i ∧ l = j
    · rw [if_pos hl, if_pos (by omega)]
    · rw [if_neg hl, if_neg (by omega)]

theorem write_nil (b : Rows φ) (rows start : ℕ) (x : ℕ → ℕ → φ) : b.write rows start 0 x = b := by
  funext k l
  exact if_neg (by omega)

theorem write_column_succ (b : Rows φ) (rows n : ℕ) (x : ℕ → ℕ → φ) :
    (b.write rows 0 n x).writeColumn rows n (fun k => x k n) = b.write rows 0 (n + 1) x := by
  funext k l
  rw [writeColumn]
  by_cases hk : k < rows ∧ l = n
  · rw [if_pos hk, write, if_pos (by omega), hk.2, Nat.sub_zero]
  · rw [if_neg hk, write, write]
    by_cases hl : k < rows ∧ 0 ≤ l ∧ l < 0 + n
    · rw [if_pos hl, if_pos (by omega)]
    · rw [if_neg hl, if_neg (by omega)]

theorem forLoop_setColumn (get : ℕ → Except ε φ) (x : ℕ → φ) {n : ℕ} (b : Rows φ) (j : ℕ)
    (hget : ∀ k < n, get k = .ok (x k)) :
    forLoop (fun k b => (get k).map (Rows.set b k j)) n b = .ok (b.writeColumn n j x) := by
  have hstep : ∀ k < n, (get k).map (Rows.set (b.writeColumn k j x) k j) =
      .ok (b.writeColumn (k + 1) j x) := by
    intro k hk
    rw [hget k hk, ← writeColumn_succ]
    rfl
  have h := forLoop_eq_ok (fun k b => (get k).map (Rows.set b k j))
    (fun k => b.writeColumn k j x) hstep
  rwa [writeColumn_zero] at h

theorem forLoop_writeColumn (body : ℕ → Rows φ → Except ε (Rows φ)) (x : ℕ → ℕ → φ)
    {rows n : ℕ} (b : Rows φ)
    (hbody : ∀ j < n, ∀ b, body j b = .ok (Rows.writeColumn b rows j (fun k => x k j))) :
    forLoop body n b = .ok (b.write rows 0 n x) := by
  have hstep : ∀ j < n, body j (b.write rows 0 j x) = .ok (b.write rows 0 (j + 1) x) := by
    intro j hj
    rw [hbody j hj, write_column_succ]
  have h := forLoop_eq_ok body (fun j => b.write rows 0 j x) hstep
  rwa [write_nil] at h

theorem length_part (b : Rows φ) (i start n : ℕ) : (b.part i start n).length = n := by
  rw [part, List.length_map, List.length_range]

theorem part_congr {b c : Rows φ} {i k start first n : ℕ}
    (h : ∀ j < n, b i (j + start) = c k (j + first)) :
    b.part i start n = c.part k first n := by
  apply List.map_congr_left
  intro j hj
  exact h j (List.mem_range.mp hj)

theorem part_add (b : Rows φ) (i start m n : ℕ) :
    b.part i start (m + n) = b.part i start m ++ b.part i (start + m) n := by
  rw [part, List.range_add, List.map_append, List.map_map]
  congr 1
  apply List.map_congr_left
  intro j _
  rw [Function.comp_apply, Nat.add_comm m j, Nat.add_assoc, Nat.add_comm m start]

theorem take_part (b : Rows φ) (i start : ℕ) {m n : ℕ} (h : m ≤ n) :
    (b.part i start n).take m = b.part i start m := by
  obtain ⟨r, rfl⟩ := Nat.exists_eq_add_of_le h
  rw [part_add, List.take_left' (length_part _ _ _ _)]

theorem drop_part (b : Rows φ) (i start : ℕ) {m n : ℕ} (h : m ≤ n) :
    (b.part i start n).drop m = b.part i (start + m) (n - m) := by
  obtain ⟨r, rfl⟩ := Nat.exists_eq_add_of_le h
  rw [part_add, List.drop_left' (length_part _ _ _ _), Nat.add_sub_cancel_left]

theorem part_write (b : Rows φ) {i rows : ℕ} (start n : ℕ) (x : ℕ → ℕ → φ) (h : i < rows) :
    (b.write rows start n x).part i start n = (List.range n).map (x i) := by
  apply List.map_congr_left
  intro j hj
  rw [write, if_pos ⟨h, by omega, by have := List.mem_range.mp hj; omega⟩, Nat.add_sub_cancel]

theorem part_write_before (b : Rows φ) (i rows start n : ℕ) (x : ℕ → ℕ → φ) :
    (b.write rows start n x).part i 0 start = b.part i 0 start := by
  apply part_congr
  intro j hj
  exact if_neg (by omega)

end Rows

def reads : List φ → List ℕ → List (List φ)
  | _, [] => []
  | l, n :: ns => l.take n :: reads (l.drop n) ns

theorem flatten_reads (l : List φ) (ns : List ℕ) : (reads l ns).flatten = l.take ns.sum := by
  induction ns generalizing l with
  | nil => rfl
  | cons n ns ih =>
      rw [reads, List.flatten_cons, ih, List.sum_cons, List.take_add]

theorem length_reads (l : List φ) (ns : List ℕ) : (reads l ns).length = ns.length := by
  induction ns generalizing l with
  | nil => rfl
  | cons n ns ih => rw [reads, List.length_cons, List.length_cons, ih]

theorem getElem?_reads (l : List φ) (ns : List ℕ) (i : ℕ) :
    (reads l ns)[i]? = ns[i]?.map (fun n => (l.drop (ns.take i).sum).take n) := by
  induction ns generalizing l i with
  | nil => rfl
  | cons n ns ih =>
      cases i with
      | zero => rfl
      | succ i =>
          rw [reads, List.getElem?_cons_succ, List.getElem?_cons_succ, ih, List.take_succ_cons,
            List.sum_cons]
          congr 1
          funext m
          rw [List.drop_drop]

end Buffers
