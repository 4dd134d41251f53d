import ModMp.CString

/-!
# What the checked string functions compute

From an offset inside the string, a search stops at the first byte it looks for or at the NUL, and
its result is read off the bytes that follow the offset. A search from past the NUL faults, and a
copy faults unless it stays inside the string.
-/

namespace CLib

theorem takeWhile_congr {p q : UInt8 → Bool} {l : Bytes} (h : ∀ b ∈ l, p b = q b) :
    l.takeWhile p = l.takeWhile q := by
  induction l with
  | nil => rfl
  | cons b l ih =>
      rw [List.takeWhile_cons, List.takeWhile_cons, h b List.mem_cons_self,
        ih (fun a ha => h a (List.mem_cons_of_mem b ha))]

theorem takeWhile_ne_of_notMem {c : UInt8} {l : Bytes} (h : c ∉ l) :
    l.takeWhile (· != c) = l := by
  apply List.takeWhile_eq_self_iff.mpr
  intro b hb
  have hne : b ≠ c := by rintro rfl; exact h hb
  simpa using hne

theorem takeWhile_ne_append {c : UInt8} {u v : Bytes} (h : c ∉ u) :
    (u ++ c :: v).takeWhile (· != c) = u := by
  induction u with
  | nil => simp
  | cons b u ih =>
      obtain ⟨hb, hu⟩ : c ≠ b ∧ c ∉ u := by simpa using h
      simp [Ne.symm hb, ih hu]

theorem drop_length_takeWhile (p : UInt8 → Bool) (l : Bytes) :
    l.drop (l.takeWhile p).length = l.dropWhile p := by
  induction l with
  | nil => rfl
  | cons b l ih => by_cases hb : p b = true <;> simp [hb, ih]

theorem length_takeWhile_ne_lt {c : UInt8} {l : Bytes} (h : c ∈ l) :
    (l.takeWhile (· != c)).length < l.length := by
  induction l with
  | nil => simp at h
  | cons b l ih =>
      by_cases hb : b = c
      · simp [hb]
      · have hl : c ∈ l := by simpa [Ne.symm hb] using h
        simpa [hb] using ih hl

theorem drop_length_takeWhile_ne {c : UInt8} {l : Bytes} (h : c ∈ l) :
    ∃ r, l.drop (l.takeWhile (· != c)).length = c :: r := by
  induction l with
  | nil => simp at h
  | cons b l ih =>
      by_cases hb : b = c
      · exact ⟨l, by simp [hb]⟩
      · have hl : c ∈ l := by simpa [Ne.symm hb] using h
        simpa [hb] using ih hl

namespace CString

variable (s : CString)

theorem ofBytes_append_zero {l r : Bytes} (hl : 0 ∉ l) : (ofBytes (l ++ 0 :: r)).bytes = l :=
  takeWhile_ne_append hl

theorem ofBytes_bytes {l : Bytes} (hl : 0 ∉ l) : (ofBytes l).bytes = l := by
  apply List.takeWhile_eq_self_iff.mpr
  intro b hb
  have hne : b ≠ 0 := by rintro rfl; exact hl hb
  simpa using hne

theorem read_of_drop {i : ℕ} {b : UInt8} {l : Bytes} (h : (s.bytes ++ [0]).drop i = b :: l) :
    s.read i = .ok b := by
  have hb : (s.bytes ++ [0])[i]? = some b := by
    rw [← List.head?_drop, h, List.head?_cons]
  unfold read length
  by_cases hi : i < s.bytes.length
  · rw [dif_pos hi]
    rw [List.getElem?_append_left hi, List.getElem?_eq_getElem hi, Option.some.injEq] at hb
    exact congrArg Except.ok hb
  · have hlt := (List.getElem?_eq_some_iff.mp hb).1
    have he : i = s.bytes.length := by
      rw [List.length_append, List.length_singleton] at hlt
      omega
    subst he
    simp only [List.getElem?_append_right le_rfl, Nat.sub_self, List.getElem?_cons_zero,
      Option.some.injEq] at hb
    rw [dif_neg hi, if_pos rfl, hb]

/-- A scan over the memory `l` that starts at offset `i` stops at the first byte satisfying
`stop`, or after `n` bytes. -/
theorem scan_of_drop {stop : UInt8 → Bool} {l : Bytes} {i n : ℕ}
    (h : (s.bytes ++ [0]).drop i = l) (hn : n ≤ l.length ∨ ∃ b ∈ l, stop b = true) :
    s.scan stop n i = .ok (i + ((l.take n).takeWhile (fun b => !stop b)).length) := by
  induction l generalizing i n with
  | nil =>
      have hz : n = 0 := by simpa using hn
      subst hz
      rfl
  | cons b l ih =>
      cases n with
      | zero => rfl
      | succ n =>
          have hd : (s.bytes ++ [0]).drop (i + 1) = l := by
            rw [← List.drop_drop, h, List.drop_one, List.tail_cons]
          simp only [scan, s.read_of_drop h, ok_bind, pure_eq_ok, List.take_succ_cons]
          by_cases hb : stop b = true
          · simp [hb]
          · have hn' : n ≤ l.length ∨ ∃ b ∈ l, stop b = true := by simpa [hb] using hn
            rw [if_neg hb, ih hd hn', List.takeWhile_cons_of_pos (by simpa using hb),
              List.length_cons, Nat.add_right_comm, Nat.add_assoc]

theorem drop_memory {i : ℕ} (hi : i ≤ s.length) :
    (s.bytes ++ [0]).drop i = s.bytes.drop i ++ [0] :=
  List.drop_append_of_le_length hi

theorem scan_to_nul {stop : UInt8 → Bool} (hz : stop 0 = true) {i : ℕ} (hi : i ≤ s.length) :
    s.scan stop (s.length + 1) i =
      .ok (i + ((s.bytes.drop i).takeWhile (fun b => !stop b)).length) := by
  have hlen : (s.bytes.drop i ++ [0]).length ≤ s.length + 1 := by simp [length]
  rw [s.scan_of_drop (s.drop_memory hi) (.inr ⟨0, by simp, hz⟩), List.take_of_length_le hlen,
    List.takeWhile_append]
  simp only [hz, Bool.not_true, Bool.false_eq_true, not_false_eq_true,
    List.takeWhile_cons_of_neg, List.append_nil]
  split_ifs with h
  · rw [h]
  · rfl

theorem scan_past_nul {stop : UInt8 → Bool} {i n : ℕ} (hi : s.length < i) :
    s.scan stop (n + 1) i = .error (.read i) := by
  have hlt : ¬ i < s.length := by omega
  have hne : i ≠ s.length := by omega
  simp only [scan, read, dif_neg hlt, if_neg hne, error_bind]

theorem strlen_eq : s.strlen = .ok s.length := by
  have hall : s.bytes.takeWhile (fun b => !(b == 0)) = s.bytes := by
    apply List.takeWhile_eq_self_iff.mpr
    intro b hb
    simpa using s.ne_zero_of_mem hb
  rw [strlen, s.scan_to_nul rfl (Nat.zero_le _), List.drop_zero, hall, Nat.zero_add, length]

theorem length_of_split {i : ℕ} {c : UInt8} {u v : Bytes} (h : s.bytes.drop i = u ++ c :: v) :
    s.length = i + u.length + 1 + v.length := by
  have hl := congrArg List.length h
  simp only [List.length_drop, List.length_append, List.length_cons] at hl
  unfold length
  omega

theorem strchr_eq {i : ℕ} (hi : i ≤ s.length) {c : UInt8} (hc : c ≠ 0) :
    s.strchr i c = .ok (if c ∈ s.bytes.drop i
      then some (i + ((s.bytes.drop i).takeWhile (· != c)).length) else none) := by
  have hcongr : (s.bytes.drop i).takeWhile (fun b => !(b == c || b == 0)) =
      (s.bytes.drop i).takeWhile (· != c) := by
    apply takeWhile_congr
    intro b hb
    have hb0 := s.ne_zero_of_mem_drop hb
    simp [hb0, bne]
  rw [strchr, s.scan_to_nul (by simp) hi, ok_bind, hcongr]
  by_cases hmem : c ∈ s.bytes.drop i
  · obtain ⟨r, hr⟩ := drop_length_takeWhile_ne hmem
    have hd : (s.bytes ++ [0]).drop (i + ((s.bytes.drop i).takeWhile (· != c)).length) =
        c :: (r ++ [0]) := by
      rw [← List.drop_drop, s.drop_memory hi,
        List.drop_append_of_le_length (List.takeWhile_sublist _).length_le, hr, List.cons_append]
    rw [s.read_of_drop hd, ok_bind, if_pos rfl, if_pos hmem, pure_eq_ok]
  · have hlen : i + (s.bytes.drop i).length = s.bytes.length := by
      rw [List.length_drop]
      exact Nat.add_sub_of_le hi
    have hd : (s.bytes ++ [0]).drop (i + (s.bytes.drop i).length) = [0] := by
      rw [hlen, List.drop_left]
    rw [takeWhile_ne_of_notMem hmem, s.read_of_drop hd, ok_bind, if_neg (Ne.symm hc),
      if_neg hmem, pure_eq_ok]

theorem strchr_of_split {i : ℕ} {c : UInt8} (hc : c ≠ 0) {u v : Bytes}
    (h : s.bytes.drop i = u ++ c :: v) (hu : c ∉ u) : s.strchr i c = .ok (some (i + u.length)) := by
  have hlen := s.length_of_split h
  have hi : i ≤ s.length := by omega
  rw [s.strchr_eq hi hc, h, if_pos (by simp), takeWhile_ne_append hu]

theorem strchr_of_notMem {i : ℕ} (hi : i ≤ s.length) {c : UInt8} (hc : c ≠ 0)
    (h : c ∉ s.bytes.drop i) : s.strchr i c = .ok none := by
  rw [s.strchr_eq hi hc, if_neg h]

theorem strchr_past_nul {i : ℕ} (hi : s.length < i) (c : UInt8) :
    s.strchr i c = .error (.read i) := by
  rw [strchr, s.scan_past_nul hi, error_bind]

theorem le_length_of_strchr {i : ℕ} {c : UInt8} {r : Option ℕ} (h : s.strchr i c = .ok r) :
    i ≤ s.length := by
  by_contra! hi
  rw [s.strchr_past_nul hi] at h
  simp at h

theorem split_of_strchr {i j : ℕ} {c : UInt8} (hc : c ≠ 0)
    (h : s.strchr i c = .ok (some j)) :
    ∃ u v, s.bytes.drop i = u ++ c :: v ∧ c ∉ u ∧ j = i + u.length := by
  rw [s.strchr_eq (s.le_length_of_strchr h) hc] at h
  by_cases hmem : c ∈ s.bytes.drop i
  · obtain ⟨u, v, huv, hu⟩ := List.eq_append_cons_of_mem hmem
    rw [if_pos hmem, huv, takeWhile_ne_append hu] at h
    simp only [Except.ok.injEq, Option.some.injEq] at h
    exact ⟨u, v, huv, hu, h.symm⟩
  · rw [if_neg hmem] at h
    simp at h

theorem bytes_of_drop {i : ℕ} {l : Bytes} (h : s.bytes.drop i = l) :
    s.bytes = s.bytes.take i ++ l := by
  rw [← h, List.take_append_drop]

theorem set_bytes_of_split {i : ℕ} {c b : UInt8} {u v : Bytes}
    (h : s.bytes.drop i = u ++ c :: v) :
    s.bytes.set (i + u.length) b = s.bytes.take i ++ (u ++ b :: v) := by
  have hlen := s.length_of_split h
  have hi : i ≤ s.bytes.length := by
    unfold length at hlen
    omega
  conv_lhs => rw [s.bytes_of_drop h]
  rw [List.set_append_right _ _ (by rw [List.length_take_of_le hi]; omega),
    List.length_take_of_le hi, Nat.add_sub_cancel_left, List.set_append_right _ _ le_rfl,
    Nat.sub_self, List.set_cons_zero]

theorem notMem_of_strchr {i : ℕ} {c : UInt8} (hc : c ≠ 0) (h : s.strchr i c = .ok none) :
    c ∉ s.bytes.drop i := by
  intro hmem
  rw [s.strchr_eq (s.le_length_of_strchr h) hc, if_pos hmem] at h
  simp at h

theorem strcspn_eq {i : ℕ} (hi : i ≤ s.length) (reject : Bytes) :
    s.strcspn i reject =
      .ok ((s.bytes.drop i).takeWhile (fun b => !reject.contains b)).length := by
  have hcongr : (s.bytes.drop i).takeWhile (fun b => !(b == 0 || reject.contains b)) =
      (s.bytes.drop i).takeWhile (fun b => !reject.contains b) := by
    apply takeWhile_congr
    intro b hb
    have hb0 := s.ne_zero_of_mem_drop hb
    simp [hb0]
  rw [strcspn, s.scan_to_nul (by simp) hi, ok_bind, hcongr, pure_eq_ok, Nat.add_sub_cancel_left]

theorem memchr_eq {i n : ℕ} (hn : i + n ≤ s.length) (c : UInt8) :
    s.memchr i c n = .ok (if c ∈ (s.bytes.drop i).take n
      then some (i + (((s.bytes.drop i).take n).takeWhile (· != c)).length) else none) := by
  have hlen : n ≤ (s.bytes.drop i).length := by
    rw [List.length_drop]
    unfold length at hn
    omega
  have hi : i ≤ s.length := by omega
  have hscan : s.scan (· == c) n i = .ok (i + (((s.bytes.drop i ++ [0]).take n).takeWhile
      (fun b => !(b == c))).length) :=
    s.scan_of_drop (s.drop_memory hi) (.inl (hlen.trans (by simp)))
  rw [memchr, hscan, ok_bind, List.take_append_of_le_length hlen, pure_eq_ok]
  change Except.ok (if i + (((s.bytes.drop i).take n).takeWhile (· != c)).length < i + n
    then _ else none) = _
  by_cases hmem : c ∈ (s.bytes.drop i).take n
  · have hlt := length_takeWhile_ne_lt hmem
    rw [List.length_take_of_le hlen] at hlt
    rw [if_pos (by omega), if_pos hmem]
    rfl
  · rw [takeWhile_ne_of_notMem hmem, List.length_take_of_le hlen, if_neg (lt_irrefl _),
      if_neg hmem]

theorem copy_eq {i n : ℕ} (hn : i + n ≤ s.length) :
    s.copy i n = .ok ((s.bytes.drop i).take n) := by
  have hn' : (i : ℤ) + n ≤ s.length := by exact_mod_cast hn
  rw [copy, if_pos ⟨Int.natCast_nonneg i, Int.natCast_nonneg n, hn'⟩, Int.toNat_natCast,
    Int.toNat_natCast]

theorem copy_negative (offset : ℤ) {size : ℤ} (h : size < 0) :
    s.copy offset size = .error (.copy offset size) := by
  rw [copy, if_neg]
  intro hinside
  have hsize := hinside.2.1
  omega

/-- A narrowed length is no larger than the length, so a copy of it faults only when negative. -/
theorem copy_narrowed {i n : ℕ} (hn : i + n ≤ s.length) :
    s.copy i (toInt n) = if 0 ≤ toInt n then .ok ((s.bytes.drop i).take (toInt n).toNat)
      else .error (.copy i (toInt n)) := by
  by_cases h0 : 0 ≤ toInt n
  · obtain ⟨k, hk⟩ := Int.eq_ofNat_of_zero_le h0
    have hkn := toInt_le_self (Int.natCast_nonneg n)
    rw [if_pos h0, hk, Int.toNat_natCast]
    exact s.copy_eq (by omega)
  · rw [if_neg h0]
    exact s.copy_negative _ (not_le.mp h0)

end CString

end CLib
