import ModMp.Buffers

/-!
# Allocated blocks

A heap has blocks of cells, and the pointers that `malloc` has returned and `free` has not taken
back are live. Each pointer is new, so a block that is freed is never live again. A `free` of a
pointer that is not live, an access to such a block or outside of a block, and a read of a cell
that has not been written are faults.
-/

namespace Allocations

open Buffers

inductive MemFault
  | free
  | access
  deriving DecidableEq

structure Heap (α : Type) where
  next : ℕ
  live : Finset ℕ
  cells : ℕ → List (Option α)
  fresh : ∀ p ∈ live, p < next

variable {α : Type}

namespace Heap

def empty : Heap α where
  next := 0
  live := ∅
  cells _ := []
  fresh p hp := absurd hp (Finset.notMem_empty p)

/-- The pointer, and the heap with a block of `n` cells at it. -/
def malloc (h : Heap α) (n : ℕ) : ℕ × Heap α :=
  (h.next,
    { next := h.next + 1
      live := insert h.next h.live
      cells := Function.update h.cells h.next (List.replicate n none)
      fresh := by
        intro p hp
        rcases Finset.mem_insert.mp hp with rfl | hp
        · exact Nat.lt_succ_self _
        · exact Nat.lt_succ_of_lt (h.fresh p hp) })

/-- The heap without some blocks. -/
def release (h : Heap α) (s : Finset ℕ) : Heap α where
  next := h.next
  live := h.live \ s
  cells := h.cells
  fresh p hp := h.fresh p (Finset.mem_sdiff.mp hp).1

def free (h : Heap α) (p : ℕ) : Except MemFault (Heap α) :=
  if p ∈ h.live then .ok (h.release {p}) else .error .free

def load (h : Heap α) (p i : ℕ) : Except MemFault α :=
  if p ∈ h.live then
    match (h.cells p)[i]? with
    | some (some v) => .ok v
    | _ => .error .access
  else .error .access

/-- The heap after a write that is inside of a block. -/
def put (h : Heap α) (p i : ℕ) (v : α) : Heap α :=
  { h with cells := Function.update h.cells p ((h.cells p).set i (some v)) }

def store (h : Heap α) (p i : ℕ) (v : α) : Except MemFault (Heap α) :=
  if p ∈ h.live ∧ i < (h.cells p).length then .ok (h.put p i v) else .error .access

variable {h : Heap α} {p q i j n : ℕ} {s t : Finset ℕ} {v : α}

theorem next_notMem_live (h : Heap α) : h.next ∉ h.live := fun hmem => (h.fresh _ hmem).false

theorem free_eq_ok (hp : p ∈ h.live) : h.free p = .ok (h.release {p}) := if_pos hp

theorem store_eq_ok (hp : p ∈ h.live) (hi : i < (h.cells p).length) :
    h.store p i v = .ok (h.put p i v) := if_pos ⟨hp, hi⟩

theorem load_eq_ok (hp : p ∈ h.live) (hv : (h.cells p)[i]? = some (some v)) :
    h.load p i = .ok v := by
  rw [load, if_pos hp, hv]

@[simp] theorem live_release (h : Heap α) (s : Finset ℕ) : (h.release s).live = h.live \ s := rfl

@[simp] theorem live_malloc (h : Heap α) (n : ℕ) :
    (h.malloc n).2.live = insert h.next h.live := rfl

theorem cells_malloc_self (h : Heap α) (n : ℕ) :
    (h.malloc n).2.cells h.next = List.replicate n none := Function.update_self _ _ _

theorem cells_malloc_of_mem (hp : p ∈ h.live) : (h.malloc n).2.cells p = h.cells p :=
  Function.update_of_ne (h.fresh p hp).ne _ _

theorem release_empty (h : Heap α) : h.release ∅ = h := by
  cases h
  simp only [release, Finset.sdiff_empty]

theorem release_release (h : Heap α) (s t : Finset ℕ) :
    (h.release s).release t = h.release (s ∪ t) := by
  simp only [release, Finset.sdiff_sdiff_left', Finset.sdiff_union_distrib]

@[simp] theorem live_put (h : Heap α) (p i : ℕ) (v : α) : (h.put p i v).live = h.live := rfl

theorem cells_put_self (h : Heap α) (p i : ℕ) (v : α) :
    (h.put p i v).cells p = (h.cells p).set i (some v) := Function.update_self _ _ _

theorem cells_put_of_ne (hq : q ≠ p) : (h.put p i v).cells q = h.cells q :=
  Function.update_of_ne hq _ _

theorem length_cells_put (h : Heap α) (p i q : ℕ) (v : α) :
    ((h.put p i v).cells q).length = (h.cells q).length := by
  by_cases hq : q = p
  · rw [hq, cells_put_self, List.length_set]
  · rw [cells_put_of_ne hq]

theorem forLoop_free (get : ℕ → Heap α → Except MemFault ℕ) {rows : List ℕ} (hrows : rows.Nodup)
    (hlive : ∀ p ∈ rows, p ∈ h.live)
    (hget : ∀ i (hi : i < rows.length), ∀ s ⊆ rows.toFinset, get i (h.release s) = .ok rows[i]) :
    forLoop (fun i h => (get i h).bind h.free) rows.length h = .ok (h.release rows.toFinset) := by
  have hstep : ∀ i < rows.length,
      (get i (h.release (rows.take i).toFinset)).bind (h.release (rows.take i).toFinset).free =
        .ok (h.release (rows.take (i + 1)).toFinset) := by
    intro i hi
    have hsub : (rows.take i).toFinset ⊆ rows.toFinset := by
      intro p hp
      exact List.mem_toFinset.mpr (List.mem_of_mem_take (List.mem_toFinset.mp hp))
    have hnot : rows[i] ∉ (rows.take i).toFinset := by
      intro hmem
      obtain ⟨j, hj, heq⟩ := List.mem_take_iff_getElem.mp (List.mem_toFinset.mp hmem)
      have hji := (List.Nodup.getElem_inj_iff hrows).mp heq
      omega
    rw [hget i hi _ hsub]
    change (h.release (rows.take i).toFinset).free rows[i] = _
    rw [free_eq_ok (Finset.mem_sdiff.mpr ⟨hlive _ (List.getElem_mem hi), hnot⟩), release_release,
      List.take_succ_eq_append_getElem hi, List.toFinset_append, List.toFinset_cons,
      List.toFinset_nil, insert_empty_eq]
  have hloop := forLoop_eq_ok (fun i h => (get i h).bind h.free)
    (fun i => h.release (rows.take i).toFinset) hstep
  rw [List.take_zero, List.toFinset_nil, release_empty, List.take_length] at hloop
  exact hloop

/-- Nothing is allocated or freed, and the blocks outside of `s` keep what is in them. -/
structure Agrees (s : Finset ℕ) (h h₂ : Heap α) : Prop where
  live : h₂.live = h.live
  length : ∀ q, (h₂.cells q).length = (h.cells q).length
  cells : ∀ q ∉ s, h₂.cells q = h.cells q

theorem Agrees.refl (s : Finset ℕ) (h : Heap α) : Agrees s h h :=
  ⟨rfl, fun _ => rfl, fun _ _ => rfl⟩

theorem Agrees.trans {h₁ h₂ h₃ : Heap α} (h₁₂ : Agrees s h₁ h₂) (h₂₃ : Agrees t h₂ h₃)
    (hst : t ⊆ s) : Agrees s h₁ h₃ where
  live := h₂₃.live.trans h₁₂.live
  length q := (h₂₃.length q).trans (h₁₂.length q)
  cells q hq := (h₂₃.cells q (fun hmem => hq (hst hmem))).trans (h₁₂.cells q hq)

theorem agrees_put (h : Heap α) (p i : ℕ) (v : α) : Agrees {p} h (h.put p i v) where
  live := rfl
  length q := h.length_cells_put p i q v
  cells _ hq := cells_put_of_ne (fun heq => hq (Finset.mem_singleton.mpr heq))

theorem forLoop_fill (get : Heap α → Except MemFault ℕ) (x : ℕ → α) (hp : p ∈ h.live)
    (hn : n ≤ (h.cells p).length) (hget : ∀ h₂, Agrees {p} h h₂ → get h₂ = .ok p) :
    ∃ h₂, forLoop (fun j h => (get h).bind (fun p => h.store p j (x j))) n h = .ok h₂ ∧
      Agrees {p} h h₂ ∧ ∀ j < n, (h₂.cells p)[j]? = some (some (x j)) := by
  apply forLoop_invariant (fun n h₂ =>
    Agrees {p} h h₂ ∧ ∀ j < n, (h₂.cells p)[j]? = some (some (x j)))
  · exact ⟨.refl _ _, fun j hj => absurd hj (Nat.not_lt_zero j)⟩
  · rintro i hi t ⟨hagrees, hcells⟩
    have hlt : i < (t.cells p).length := by
      rw [hagrees.length]
      omega
    refine ⟨t.put p i (x i), ?_, hagrees.trans (t.agrees_put p i (x i)) (Finset.Subset.refl _), ?_⟩
    · rw [hget t hagrees]
      exact store_eq_ok (hagrees.live ▸ hp) hlt
    · intro j hj
      rw [cells_put_self, List.getElem?_set]
      split_ifs with heq
      · rw [heq]
      · exact hcells j (by omega)

theorem forLoop_fillRows (get : ℕ → Heap α → Except MemFault ℕ) (x : ℕ → ℕ → α) {rows : List ℕ}
    (hrows : rows.Nodup) (hlive : ∀ p ∈ rows, p ∈ h.live)
    (hn : ∀ p ∈ rows, n ≤ (h.cells p).length)
    (hget : ∀ i (hi : i < rows.length), ∀ h₂, Agrees rows.toFinset h h₂ →
      get i h₂ = .ok rows[i]) :
    ∃ h₂, forLoop (fun i => forLoop (fun j h =>
        (get i h).bind (fun p => h.store p j (x i j))) n) rows.length h = .ok h₂ ∧
      Agrees rows.toFinset h h₂ ∧
      ∀ i (hi : i < rows.length), ∀ j < n, (h₂.cells rows[i])[j]? = some (some (x i j)) := by
  have hinv := @forLoop_invariant _ _ (fun i => forLoop (fun j h =>
      (get i h).bind (fun p => h.store p j (x i j))) n)
    (fun k h₂ => Agrees rows.toFinset h h₂ ∧ ∀ i (hi : i < rows.length), i < k →
      ∀ j < n, (h₂.cells rows[i])[j]? = some (some (x i j))) rows.length h
  obtain ⟨h₂, hloop, hagrees, hcells⟩ := hinv
    ⟨.refl _ _, fun i _ hi => absurd hi (Nat.not_lt_zero i)⟩ (by
      rintro k hk t ⟨hagrees, hcells⟩
      have hmem : rows[k] ∈ rows := List.getElem_mem hk
      have hsub : {rows[k]} ⊆ rows.toFinset :=
        Finset.singleton_subset_iff.mpr (List.mem_toFinset.mpr hmem)
      obtain ⟨u, hu, hagrees', hfill⟩ := forLoop_fill (get k) (x k) (h := t) (n := n)
        (hagrees.live ▸ hlive _ hmem) (by rw [hagrees.length]; exact hn _ hmem)
        (fun h₂ ht => hget k hk h₂ (hagrees.trans ht hsub))
      refine ⟨u, hu, hagrees.trans hagrees' hsub, ?_⟩
      intro i hi hik j hj
      by_cases heq : i = k
      · subst heq
        exact hfill j hj
      · have hne : rows[i] ∉ ({rows[k]} : Finset ℕ) := by
          rw [Finset.mem_singleton]
          exact fun hrow => heq ((List.Nodup.getElem_inj_iff hrows).mp hrow)
        rw [hagrees'.cells _ hne]
        exact hcells i hi (by omega) j hj)
  exact ⟨h₂, hloop, hagrees, fun i hi => hcells i hi hi⟩

/-- New blocks, and the array that their pointers are written to. -/
structure Allocates (b m : ℕ) (ptr : ℕ → α) (h : Heap α) (rows : List ℕ) (h₂ : Heap α) : Prop where
  nodup : rows.Nodup
  new : ∀ p ∈ rows, p ∉ h.live
  live : h₂.live = h.live ∪ rows.toFinset
  size : ∀ p ∈ rows, (h₂.cells p).length = m
  array : ∀ i (hi : i < rows.length), (h₂.cells b)[i]? = some (some (ptr rows[i]))
  length : (h₂.cells b).length = (h.cells b).length
  cells : ∀ q ∈ h.live, q ≠ b → h₂.cells q = h.cells q

theorem Allocates.nil {b m : ℕ} {ptr : ℕ → α} : Allocates b m ptr h [] h where
  nodup := List.nodup_nil
  new _ hp := absurd hp List.not_mem_nil
  live := by rw [List.toFinset_nil, Finset.union_empty]
  size _ hp := absurd hp List.not_mem_nil
  array i hi := absurd hi (Nat.not_lt_zero i)
  length := rfl
  cells _ _ _ := rfl

theorem Allocates.snoc {b m : ℕ} {ptr : ℕ → α} {rows : List ℕ} {h₂ : Heap α}
    (ha : Allocates b m ptr h rows h₂) (hb : b ∈ h₂.live)
    (hlt : rows.length < (h₂.cells b).length) :
    Allocates b m ptr h (rows ++ [h₂.next])
      ((h₂.malloc m).2.put b rows.length (ptr (h₂.malloc m).1)) := by
  have hrow : ∀ p ∈ rows, p ∈ h₂.live := by
    intro p hp
    rw [ha.live]
    exact Finset.mem_union_right _ (List.mem_toFinset.mpr hp)
  have hold : ∀ p ∈ h.live, p ∈ h₂.live := by
    intro p hp
    rw [ha.live]
    exact Finset.mem_union_left _ hp
  constructor
  · rw [List.nodup_append]
    refine ⟨ha.nodup, List.nodup_singleton _, ?_⟩
    intro p hp q hq heq
    rw [List.mem_singleton.mp hq] at heq
    exact h₂.next_notMem_live (heq ▸ hrow p hp)
  · intro p hp hmem
    rcases List.mem_append.mp hp with hp | hp
    · exact ha.new p hp hmem
    · rw [List.mem_singleton.mp hp] at hmem
      exact h₂.next_notMem_live (hold _ hmem)
  · rw [live_put, live_malloc, ha.live, List.toFinset_append, List.toFinset_cons,
      List.toFinset_nil, insert_empty_eq, ← Finset.union_assoc, Finset.insert_eq,
      Finset.union_comm {h₂.next}]
  · intro p hp
    rw [length_cells_put]
    rcases List.mem_append.mp hp with hp | hp
    · rw [cells_malloc_of_mem (hrow p hp)]
      exact ha.size p hp
    · rw [List.mem_singleton.mp hp, cells_malloc_self, List.length_replicate]
  · intro i hi
    rw [cells_put_self, cells_malloc_of_mem hb, List.getElem?_set]
    split_ifs with heq
    · subst heq
      rw [List.getElem_concat_length rfl]
      rfl
    · rw [List.length_append, List.length_singleton] at hi
      have hir : i < rows.length := by omega
      rw [ha.array i hir, List.getElem_append_left hir]
  · rw [length_cells_put, cells_malloc_of_mem hb]
    exact ha.length
  · intro q hq hne
    rw [cells_put_of_ne hne, cells_malloc_of_mem (hold q hq)]
    exact ha.cells q hq hne

theorem forLoop_malloc (ptr : ℕ → α) (hp : p ∈ h.live) (hn : n ≤ (h.cells p).length) (m : ℕ) :
    ∃ h₂, forLoop (fun i h => (h.malloc m).2.store p i (ptr (h.malloc m).1)) n h = .ok h₂ ∧
      ∃ rows, rows.length = n ∧ Allocates p m ptr h rows h₂ := by
  apply forLoop_invariant (fun n h₂ => ∃ rows, rows.length = n ∧ Allocates p m ptr h rows h₂)
  · exact ⟨[], rfl, Allocates.nil⟩
  · rintro i hi t ⟨rows, rfl, ht⟩
    have hlt : rows.length < (t.cells p).length := by
      rw [ht.length]
      omega
    have hmem : p ∈ t.live := by
      rw [ht.live]
      exact Finset.mem_union_left _ hp
    refine ⟨_, ?_, rows ++ [t.next], List.length_append, ht.snoc hmem hlt⟩
    apply store_eq_ok (Finset.mem_insert_of_mem hmem)
    rw [cells_malloc_of_mem hmem]
    exact hlt

end Heap

end Allocations
