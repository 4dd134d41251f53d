import ModMp.InputParameters

/-!
# The indexer and the command of a URI

Both strings are cut out of the URI with sizes that are differences of offsets found by separate
searches, narrowed to `int`. They are computed here from a decomposition of the URI at its second
slash, in every case the narrowing leaves.
-/

namespace ModMp
open CLib

variable {uri : CString}

theorem slash_ne_zero : '/'.toUInt8 ≠ 0 := by decide

theorem question_ne_zero : '?'.toUInt8 ≠ 0 := by decide

/-! ### The indexer -/

theorem getIndexerFromUri_of_end (hpos : 1 ≤ uri.length) {n : ℤ} (hn : n < 2 ^ 31)
    (hle : n ≤ uri.length)
    (h : '/'.toUInt8 ∉ uri.bytes.drop 1 ∨ ∃ u v, uri.bytes.drop 1 = u ++ '/'.toUInt8 :: v ∧
      '/'.toUInt8 ∉ u ∧ n < toInt u.length) :
    getIndexerFromUri uri n = .ok (if 1 < n then
      (0, some ((uri.bytes.drop 1).take (n - 1).toNat)) else (-1, none)) := by
  have hend : getIndexerFromUri uri n = (if n > ((1 : ℕ) : ℤ) then do
      let indexer ← uri.copy ((1 : ℕ) : ℤ) (toInt (n - ((1 : ℕ) : ℤ)))
      return (0, some indexer) else return (-1, none)) := by
    rcases h with h | ⟨u, v, h, hu, hlt⟩
    · rw [getIndexerFromUri, uri.strchr_of_notMem hpos slash_ne_zero h]
      rfl
    · rw [getIndexerFromUri, uri.strchr_of_split slash_ne_zero h hu, ok_bind]
      dsimp only
      rw [show ((1 + u.length : ℕ) : ℤ) - ((1 : ℕ) : ℤ) = u.length by push_cast; ring, if_pos hlt]
  rw [hend]
  by_cases h1 : 1 < n
  · obtain ⟨k, hk⟩ : ∃ k : ℕ, n = k + 1 := ⟨(n - 1).toNat, by omega⟩
    have hsize : toInt (n - ((1 : ℕ) : ℤ)) = k := by
      rw [toInt_of_range (by norm_num; omega) (by norm_num; omega)]
      push_cast
      omega
    have hcopy : uri.copy ((1 : ℕ) : ℤ) k = .ok ((uri.bytes.drop 1).take k) :=
      uri.copy_eq (by omega)
    rw [if_pos (by exact_mod_cast h1), if_pos h1, hsize, hcopy, ok_bind, pure_eq_ok,
      show (n - 1).toNat = k by omega]
  · rw [if_neg (by exact_mod_cast h1), if_neg h1, pure_eq_ok]

theorem getIndexerFromUri_of_slash {u v : Bytes} (h : uri.bytes.drop 1 = u ++ '/'.toUInt8 :: v)
    (hu : '/'.toUInt8 ∉ u) {n : ℤ} (hn : toInt u.length ≤ n) :
    getIndexerFromUri uri n = (if u = [] then .ok (-1, none)
      else if 0 ≤ toInt u.length then .ok (0, some (u.take (toInt u.length).toNat))
      else .error (.copy 1 (toInt u.length))) := by
  have hlen := uri.length_of_split h
  have hoff : ((1 + u.length : ℕ) : ℤ) - ((1 : ℕ) : ℤ) = u.length := by push_cast; ring
  rw [getIndexerFromUri, uri.strchr_of_split slash_ne_zero h hu, ok_bind]
  dsimp only
  rw [hoff, if_neg (not_lt.mpr hn)]
  by_cases hnil : u = []
  · subst hnil
    rfl
  · have hpos : 0 < u.length := List.length_pos_iff.mpr hnil
    have hule := toInt_le_self (Int.natCast_nonneg u.length)
    have hcopy : uri.copy ((1 : ℕ) : ℤ) (toInt u.length) = _ := uri.copy_narrowed (by omega)
    rw [if_pos (by push_cast; omega), if_neg hnil, hoff, hcopy, h,
      List.take_append_of_le_length (by omega)]
    split_ifs
    · rfl
    · rfl

/-! ### The command -/

theorem getCommandFromUri_of_no_slash (hpos : 1 ≤ uri.length)
    (h : '/'.toUInt8 ∉ uri.bytes.drop 1) (n : ℤ) : getCommandFromUri uri n = .ok (-1, none) := by
  rw [getCommandFromUri, uri.strchr_of_notMem hpos slash_ne_zero h]
  rfl

theorem getCommandFromUri_of_slash {u v : Bytes} (h : uri.bytes.drop 1 = u ++ '/'.toUInt8 :: v)
    (hu : '/'.toUInt8 ∉ u) (n : ℤ) :
    getCommandFromUri uri n = (do
      let paramStart ← uri.strchr 1 '?'.toUInt8
      let size : ℤ := match paramStart with
        | some paramStartIndex => toInt ((paramStartIndex : ℤ) - (↑(1 + u.length) + 1))
        | none => toInt (n - (↑(1 + u.length) + 1))
      let command ← uri.copy (↑(1 + u.length) + 1) size
      return (0, some command)) := by
  rw [getCommandFromUri, uri.strchr_of_split slash_ne_zero h hu, ok_bind]
  exact if_pos (by omega)

/-- Whether there is a query or not, the size of the command is that of the text before it. -/
theorem commandSize_of_path {u v : Bytes} (h : uri.bytes.drop 1 = u ++ '/'.toUInt8 :: v)
    (hq : '?'.toUInt8 ∉ u) :
    ∃ r, uri.strchr 1 '?'.toUInt8 = .ok r ∧ (match r with
      | some paramStartIndex => toInt ((paramStartIndex : ℤ) - (↑(1 + u.length) + 1))
      | none => toInt (toInt uri.length - (↑(1 + u.length) + 1))) =
        toInt (v.takeWhile (· != '?'.toUInt8)).length := by
  have hlen := uri.length_of_split h
  by_cases hv : '?'.toUInt8 ∈ v
  · obtain ⟨w, x, rfl, hw⟩ := List.eq_append_cons_of_mem hv
    have hsplit : uri.bytes.drop 1 = (u ++ '/'.toUInt8 :: w) ++ '?'.toUInt8 :: x := by
      rw [h, List.append_assoc, List.cons_append]
    have hnot : '?'.toUInt8 ∉ u ++ '/'.toUInt8 :: w := by
      simp only [List.mem_append, List.mem_cons, not_or]
      exact ⟨hq, by decide, hw⟩
    refine ⟨_, uri.strchr_of_split question_ne_zero hsplit hnot, ?_⟩
    dsimp only
    rw [takeWhile_ne_append hw]
    congr 1
    simp only [List.length_append, List.length_cons]
    push_cast
    ring
  · have hnot : '?'.toUInt8 ∉ uri.bytes.drop 1 := by
      rw [h]
      simp only [List.mem_append, List.mem_cons, not_or]
      exact ⟨hq, by decide, hv⟩
    refine ⟨_, uri.strchr_of_notMem (by omega) question_ne_zero hnot, ?_⟩
    dsimp only
    rw [takeWhile_ne_of_notMem hv, toInt_toInt_sub]
    congr 1
    rw [hlen]
    push_cast
    ring

theorem getCommandFromUri_of_path {u v : Bytes} (h : uri.bytes.drop 1 = u ++ '/'.toUInt8 :: v)
    (hu : '/'.toUInt8 ∉ u) (hq : '?'.toUInt8 ∉ u) {command : Bytes}
    (hc : command = v.takeWhile (· != '?'.toUInt8)) :
    getCommandFromUri uri (toInt uri.length) = (if 0 ≤ toInt command.length
      then .ok (0, some (command.take (toInt command.length).toNat))
      else .error (.copy (↑(1 + u.length) + 1) (toInt command.length))) := by
  have hlen := uri.length_of_split h
  have hdrop : uri.bytes.drop (1 + u.length + 1) = v := by
    rw [Nat.add_assoc, ← List.drop_drop, h, ← List.drop_drop, List.drop_left, List.drop_one,
      List.tail_cons]
  obtain ⟨r, hr, hsize⟩ := commandSize_of_path h hq
  rw [← hc] at hsize
  rw [getCommandFromUri_of_slash h hu, hr, ok_bind]
  dsimp only
  rw [hsize]
  have hcv : command <+: v := hc ▸ List.takeWhile_prefix _
  have hcle := toInt_le_self (Int.natCast_nonneg command.length)
  have hvle := hcv.length_le
  have hcopy : uri.copy ((1 + u.length + 1 : ℕ) : ℤ) (toInt command.length) = _ :=
    uri.copy_narrowed (by omega)
  obtain ⟨w, rfl⟩ := hcv
  rw [hdrop, List.take_append_of_le_length (by omega)] at hcopy
  push_cast at hcopy ⊢
  rw [hcopy]
  split_ifs
  · rfl
  · rfl

/-- After a slash the command is never NULL, whatever was cut out. -/
theorem getCommandFromUri_isSome {u v : Bytes} (h : uri.bytes.drop 1 = u ++ '/'.toUInt8 :: v)
    (hu : '/'.toUInt8 ∉ u) {n : ℤ} {r : ℤ × Option Bytes} (hr : getCommandFromUri uri n = .ok r) :
    r.2.isSome = true := by
  rw [getCommandFromUri_of_slash h hu] at hr
  obtain ⟨start, _, hr⟩ := exists_of_bind_eq_ok hr
  obtain ⟨command, _, hr⟩ := exists_of_bind_eq_ok hr
  rw [← Except.ok.inj hr]
  rfl

theorem getCommandFromUri_of_query_first {u v : Bytes}
    (h : uri.bytes.drop 1 = u ++ '/'.toUInt8 :: v) (hu : '/'.toUInt8 ∉ u)
    (hq : '?'.toUInt8 ∈ u) (hshort : uri.length < 2 ^ 31) (n : ℤ) :
    ∃ fault, getCommandFromUri uri n = .error fault := by
  obtain ⟨w, x, hw, hwn⟩ := List.eq_append_cons_of_mem hq
  have hsplit : uri.bytes.drop 1 = w ++ '?'.toUInt8 :: (x ++ '/'.toUInt8 :: v) := by
    rw [h, hw, List.append_assoc, List.cons_append]
  have hwu : w.length < u.length := by
    rw [hw, List.length_append, List.length_cons]
    omega
  have hlen := uri.length_of_split h
  have hsize : toInt (((1 + w.length : ℕ) : ℤ) - (↑(1 + u.length) + 1)) =
      (w.length : ℤ) - u.length - 1 := by
    rw [toInt_of_range]
    · push_cast; ring
    · push_cast; omega
    · push_cast; omega
  rw [getCommandFromUri_of_slash h hu, uri.strchr_of_split question_ne_zero hsplit hwn, ok_bind]
  dsimp only
  rw [hsize, uri.copy_negative _ (by omega), error_bind]
  exact ⟨_, rfl⟩

/-! ### The whole parser -/

variable {aprTableMergen : AprTable → Bytes → Bytes → AprTable}

theorem inputInit_of_helpers {indexer command : ℤ × Option Bytes} (methodNum : ℤ)
    (hi : getIndexerFromUri uri (toInt uri.length) = .ok indexer)
    (hc : getCommandFromUri uri (toInt uri.length) = .ok command) :
    ∃ parameters, inputInit aprTableMergen (some uri) methodNum =
      .ok (0, ⟨methodNum, some uri, indexer.2, command.2, parameters⟩) := by
  obtain ⟨parameters, hp⟩ := exists_getParametersFromUri aprTableMergen uri
  refine ⟨parameters.2, ?_⟩
  rw [inputInit, uri.strlen_eq, ok_bind, hi, ok_bind, hc, ok_bind, hp, ok_bind, pure_eq_ok]

theorem helpers_of_inputInit {methodNum : ℤ} {r : ℤ × Input}
    (h : inputInit aprTableMergen (some uri) methodNum = .ok r) :
    ∃ indexer command, getIndexerFromUri uri (toInt uri.length) = .ok indexer ∧
      getCommandFromUri uri (toInt uri.length) = .ok command ∧
      r.2.indexerString = indexer.2 ∧ r.2.commandString = command.2 := by
  rw [inputInit, uri.strlen_eq, ok_bind] at h
  obtain ⟨indexer, hi, h⟩ := exists_of_bind_eq_ok h
  obtain ⟨command, hc, h⟩ := exists_of_bind_eq_ok h
  obtain ⟨parameters, _, h⟩ := exists_of_bind_eq_ok h
  refine ⟨indexer, command, hi, hc, ?_, ?_⟩ <;> rw [← Except.ok.inj h]

end ModMp
