import Mathlib.Data.List.TakeWhile
import Mathlib.Data.Vector.Basic
import Mathlib.Tactic

/-!
# C strings with checked reads

A C string is the bytes before its NUL. The scanning functions of the C library read it one
byte at a time through `CString.read`, which faults past the NUL, and the copying functions
fault on a length that is negative or reaches past the NUL. A computation that ends in `ok` has
therefore stayed inside its string, and the specifications below say what it computes.
-/

namespace CLib

abbrev Bytes := List UInt8

def quote : UInt8 := 0x22

def backslash : UInt8 := 0x5C

/-- An access outside the string: a read at an offset, or a copy of a length from an offset. -/
inductive Fault
  | read (offset : ℕ)
  | copy (offset length : ℤ)
  deriving DecidableEq, Repr

structure CString where
  bytes : Bytes
  nul_free : 0 ∉ bytes
  deriving DecidableEq

/-- The conversion of an integer to a 32-bit `int`. -/
def toInt (x : ℤ) : ℤ := Int.bmod x (2 ^ 32)

theorem toInt_of_range {x : ℤ} (hlo : -2 ^ 31 ≤ x) (hhi : x < 2 ^ 31) : toInt x = x := by
  unfold toInt
  rw [Int.bmod_eq_iff (by norm_num)]
  norm_num
  omega

theorem toInt_natCast {k : ℕ} (h : k < 2 ^ 31) : toInt k = k :=
  toInt_of_range (by omega) (by exact_mod_cast h)

theorem toInt_range (x : ℤ) : -2 ^ 31 ≤ toInt x ∧ toInt x < 2 ^ 31 := by
  have hlo := Int.le_bmod (x := x) (m := 2 ^ 32) (by norm_num)
  have hhi := Int.bmod_lt (x := x) (m := 2 ^ 32) (by norm_num)
  unfold toInt
  norm_num at hlo hhi ⊢
  omega

theorem toInt_toInt_sub (x y : ℤ) : toInt (toInt x - y) = toInt (x - y) :=
  Int.bmod_sub_bmod

theorem toInt_le_self {x : ℤ} (hx : 0 ≤ x) : toInt x ≤ x := by
  unfold toInt
  rw [Int.bmod_def]
  norm_num
  split_ifs <;> omega

@[simp] theorem ok_bind {ε α β : Type} (a : α) (f : α → Except ε β) :
    (Except.ok a >>= f) = f a := rfl

@[simp] theorem error_bind {ε α β : Type} (e : ε) (f : α → Except ε β) :
    (Except.error e >>= f) = Except.error e := rfl

@[simp] theorem pure_eq_ok {ε α : Type} (a : α) : (pure a : Except ε α) = .ok a := rfl

theorem exists_of_bind_eq_ok {ε α β : Type} {x : Except ε α} {f : α → Except ε β} {b : β}
    (h : (x >>= f) = .ok b) : ∃ a, x = .ok a ∧ f a = .ok b := by
  cases x with
  | error e => exact absurd h (by simp)
  | ok a => exact ⟨a, rfl, h⟩

namespace CString

variable (s : CString)

def length : ℕ := s.bytes.length

/-- The C string at the start of a memory area. -/
def ofBytes (l : Bytes) : CString where
  bytes := l.takeWhile (· != 0)
  nul_free h := by simpa using List.mem_takeWhile_imp h

def ofAscii (t : String) : CString := ofBytes (t.toList.map Char.toUInt8)

/-- One step of `apr_pstrcat`. -/
def append (t : CString) : CString where
  bytes := s.bytes ++ t.bytes
  nul_free h := (List.mem_append.mp h).elim s.nul_free t.nul_free

/-- The write `s[i] = b`. -/
def set (i : ℕ) (b : UInt8) (hb : b ≠ 0) : CString where
  bytes := s.bytes.set i b
  nul_free h := (List.mem_or_eq_of_mem_set h).elim s.nul_free hb.symm

def read (i : ℕ) : Except Fault UInt8 :=
  if h : i < s.length then .ok (s.bytes.get ⟨i, h⟩)
  else if i = s.length then .ok 0
  else .error (.read i)

/-- Reads at most `n` bytes from offset `i` on, up to the first that satisfies `stop`, and
returns the offset reached. -/
def scan (stop : UInt8 → Bool) : ℕ → ℕ → Except Fault ℕ
  | 0, i => .ok i
  | n + 1, i => do
      let b ← s.read i
      if stop b then return i else scan stop n (i + 1)

def strlen : Except Fault ℕ := s.scan (· == 0) (s.length + 1) 0

def strchr (i : ℕ) (c : UInt8) : Except Fault (Option ℕ) := do
  let j ← s.scan (fun b => b == c || b == 0) (s.length + 1) i
  let b ← s.read j
  return if b = c then some j else none

def memchr (i : ℕ) (c : UInt8) (n : ℕ) : Except Fault (Option ℕ) := do
  let j ← s.scan (· == c) n i
  return if j < i + n then some j else none

def strcspn (i : ℕ) (reject : Bytes) : Except Fault ℕ := do
  let j ← s.scan (fun b => b == 0 || reject.contains b) (s.length + 1) i
  return j - i

/-- `apr_pstrmemdup` and `apr_pstrndup` of `size` bytes at `s + offset`. -/
def copy (offset size : ℤ) : Except Fault Bytes :=
  if 0 ≤ offset ∧ 0 ≤ size ∧ offset + size ≤ s.length then
    .ok ((s.bytes.drop offset.toNat).take size.toNat)
  else .error (.copy offset size)

/-- What `strncpy(d, s, n)` leaves in the first `n` bytes of `d`. -/
def strncpy (n : ℕ) : List.Vector UInt8 n := ⟨s.bytes.takeD n 0, List.takeD_length n s.bytes 0⟩

/-- What `apr_cpystrn(d, s, size)` leaves in `d`, for a positive `size`: the bytes that fit, a NUL,
and the old bytes after it. -/
def cpystrn {n : ℕ} (d : List.Vector UInt8 n) (size : ℕ) : List.Vector UInt8 n :=
  List.Vector.ofFn (fun j =>
    if j < min s.length (size - 1) then s.bytes.getD j 0
    else if j = min s.length (size - 1) then 0
    else d.get j)

theorem eq_of_bytes {s t : CString} (h : s.bytes = t.bytes) : s = t := by
  cases s
  cases t
  exact CString.mk.injEq .. |>.mpr h

theorem ne_zero_of_mem {b : UInt8} (hb : b ∈ s.bytes) : b ≠ 0 :=
  fun h => s.nul_free (h ▸ hb)

theorem ne_zero_of_mem_drop {i : ℕ} {b : UInt8} (hb : b ∈ s.bytes.drop i) : b ≠ 0 :=
  s.ne_zero_of_mem (List.mem_of_mem_drop hb)

@[simp] theorem set_bytes (i : ℕ) {b : UInt8} (hb : b ≠ 0) :
    (s.set i b hb).bytes = s.bytes.set i b := rfl

@[simp] theorem append_bytes (t : CString) : (s.append t).bytes = s.bytes ++ t.bytes := rfl

end CString

end CLib
