import Mathlib.Data.List.GetD
import ModMp.CStringSearch

/-!
# Strings in allocated memory

A pool is the list of its blocks, and a pointer is a block with an offset. Blocks are only added,
so a pointer keeps its memory when another block is allocated or written, and two pointers into one
block see the same writes. A read outside of a block has no result.
-/

namespace StringPool
open CLib

abbrev Pool := List Bytes

structure Pointer where
  block : ℕ
  offset : ℕ
  deriving DecidableEq

def Pointer.add (p : Pointer) (i : ℕ) : Pointer := ⟨p.block, p.offset + i⟩

/-- The bytes from a pointer to the end of its block. -/
def memoryAt (pool : Pool) (p : Pointer) : Bytes := (pool.getD p.block []).drop p.offset

def load (pool : Pool) (p : Pointer) : Option UInt8 := (memoryAt pool p).head?

def store (pool : Pool) (p : Pointer) (b : UInt8) : Pool :=
  pool.modify p.block (fun block => block.set p.offset b)

/-- The string at a pointer, up to its NUL. -/
def stringAt (pool : Pool) (p : Pointer) : Option CString :=
  if 0 ∈ memoryAt pool p then some (.ofBytes (memoryAt pool p)) else none

def strlen (pool : Pool) (p : Pointer) : Option ℕ := (stringAt pool p).map CString.length

def pstrmemdup (pool : Pool) (l : Bytes) : Pool × Pointer := (pool ++ [l ++ [0]], ⟨pool.length, 0⟩)

def pstrdup (pool : Pool) (s : CString) : Pool × Pointer := pstrmemdup pool s.bytes

/-- A pointer that may be NULL, and the string that it should point to. -/
def Shows (pool : Pool) (p : Option Pointer) (s : Option CString) : Prop :=
  p.map (stringAt pool) = s.map some

variable {pool : Pool} {p q : Pointer}

theorem memoryAt_add (pool : Pool) (p : Pointer) (i : ℕ) :
    memoryAt pool (p.add i) = (memoryAt pool p).drop i := by
  rw [memoryAt, memoryAt, List.drop_drop]
  rfl

theorem load_add (pool : Pool) (p : Pointer) (i : ℕ) :
    load pool (p.add i) = (memoryAt pool p)[i]? := by
  rw [load, memoryAt_add, List.head?_drop]

theorem memoryAt_store_of_ne (b : UInt8) (h : q.block ≠ p.block) :
    memoryAt (store pool p b) q = memoryAt pool q := by
  have hblock : (store pool p b)[q.block]? = pool[q.block]? := by
    rw [store, List.getElem?_modify_ne _ _ h.symm]
  rw [memoryAt, List.getD_eq_getElem?_getD, hblock, ← List.getD_eq_getElem?_getD, memoryAt]

theorem memoryAt_store_add (pool : Pool) (p : Pointer) (i : ℕ) (b : UInt8) :
    memoryAt (store pool (p.add i) b) p = (memoryAt pool p).set i b := by
  have hblock : (store pool (p.add i) b).getD p.block [] =
      (pool.getD p.block []).set (p.offset + i) b := by
    rw [store, List.getD_eq_getElem?_getD, List.getD_eq_getElem?_getD]
    change ((pool.modify p.block _)[p.block]?).getD [] = _
    rw [List.getElem?_modify_eq]
    cases pool[p.block]? <;> rfl
  rw [memoryAt, hblock, List.drop_set, if_neg (by omega), Nat.add_sub_cancel_left]
  rfl

theorem stringAt_of_memoryAt {s : CString} {r : Bytes}
    (h : memoryAt pool p = s.bytes ++ 0 :: r) : stringAt pool p = some s := by
  have hmem : (0 : UInt8) ∈ s.bytes ++ 0 :: r := List.mem_append_right _ List.mem_cons_self
  rw [stringAt, h, if_pos hmem]
  exact congrArg some (CString.eq_of_bytes (CString.ofBytes_append_zero s.nul_free))

theorem Shows.of_memoryAt {pool' : Pool} {p : Option Pointer} {s : Option CString}
    (h : Shows pool p s) (hmemory : ∀ q, p = some q → memoryAt pool' q = memoryAt pool q) :
    Shows pool' p s := by
  rw [Shows, ← h]
  apply Option.map_congr
  intro q hq
  rw [stringAt, stringAt, hmemory q hq]

theorem memoryAt_pstrmemdup (pool : Pool) (l : Bytes) :
    memoryAt (pstrmemdup pool l).1 (pstrmemdup pool l).2 = l ++ [0] := by
  rw [memoryAt, pstrmemdup, List.getD_append_right _ _ _ _ le_rfl, Nat.sub_self]
  rfl

theorem memoryAt_pstrmemdup_of_lt (l : Bytes) (h : p.block < pool.length) :
    memoryAt (pstrmemdup pool l).1 p = memoryAt pool p := by
  rw [memoryAt, pstrmemdup, List.getD_append _ _ _ _ h]
  rfl

theorem length_pstrmemdup (pool : Pool) (l : Bytes) :
    (pstrmemdup pool l).1.length = pool.length + 1 := List.length_append

end StringPool
