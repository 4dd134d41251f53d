import ModMp.ErrorDuplicate

/-!
# Reading error texts back

A record keeps its two texts in arrays of 1024 bytes, and its readers take each array for a C
string. `strncpy` writes a NUL behind a text only when there is room for one. So a text is read back
from its own array exactly when it is shorter than the array.
-/

namespace ModMp
open CLib

/-- The C string that starts with the array, unless a reader leaves the array. -/
def stringIn {n : ℕ} (v : List.Vector UInt8 n) : Option Bytes :=
  if 0 ∈ v.toList then some (CString.ofBytes v.toList).bytes else none

section Strncpy
variable (s : CString) {n : ℕ}

theorem zero_mem_takeD {l : Bytes} (h : 0 ∉ l) : 0 ∈ l.takeD n 0 ↔ l.length < n := by
  induction n generalizing l with
  | zero => simp
  | succ n ih =>
      cases l with
      | nil => simp
      | cons b l =>
          obtain ⟨hb, hl⟩ : 0 ≠ b ∧ 0 ∉ l := by simpa using h
          rw [List.takeD_succ, List.head?_cons, Option.getD_some, List.tail_cons, List.mem_cons,
            or_iff_right hb, ih hl, List.length_cons, Nat.succ_lt_succ_iff]

theorem stringIn_strncpy :
    stringIn (s.strncpy n) = if s.length < n then some s.bytes else none := by
  have hiff : 0 ∈ (s.strncpy n).toList ↔ s.length < n := zero_mem_takeD s.nul_free
  unfold stringIn
  simp only [hiff]
  by_cases h : s.length < n
  · have hbytes : (CString.ofBytes (s.strncpy n).toList).bytes = s.bytes :=
      takeWhile_takeD (fun b hb => s.ne_zero_of_mem hb) h.le
    rw [if_pos h, if_pos h, hbytes]
  · rw [if_neg h, if_neg h]

theorem stringIn_strncpy_eq_iff :
    stringIn (s.strncpy n) = some (s.bytes.take (n - 1)) ↔ s.length < n := by
  rw [stringIn_strncpy]
  by_cases h : s.length < n
  · have htake : s.bytes.take (n - 1) = s.bytes :=
      List.take_of_length_le (Nat.le_pred_of_lt h)
    rw [if_pos h, htake]
    exact iff_of_true rfl h
  · rw [if_neg h]
    exact iff_of_false (by simp) h

end Strncpy

theorem errorMessagesAdd_record {t t' : ErrorMessages} {call : ErrorCall}
    (h : errorMessagesAdd t call = (0, t')) : t'.messages t.numErrors = call.record := by
  by_cases hfull : t.Full
  · rw [errorMessagesAdd_of_full hfull] at h
    simp at h
  · have hmessages := (errorMessagesAdd_of_not_full hfull call).2.2
    rw [h] at hmessages
    rw [hmessages, Function.update_self]

/-- Both texts of a new record can be read back, up to the size of their arrays, exactly when both
are shorter than these. -/
theorem errorMessagesAdd_readBack_iff {t t' : ErrorMessages} {call : ErrorCall}
    (h : errorMessagesAdd t call = (0, t')) :
    (stringIn (t'.messages t.numErrors).header =
          some (call.header.bytes.take (maxErrorSize - 1)) ∧
        stringIn (t'.messages t.numErrors).message =
          some (call.message.bytes.take (maxErrorSize - 1))) ↔
      call.header.length < maxErrorSize ∧ call.message.length < maxErrorSize := by
  rw [errorMessagesAdd_record h]
  exact and_congr (stringIn_strncpy_eq_iff call.header) (stringIn_strncpy_eq_iff call.message)

theorem errorMessagesAdd_readBack_noConnection :
    ∃ t', errorMessagesAdd noRecords (twoCalls 0) = (0, t') ∧
    stringIn (t'.messages 0).header = some ((twoCalls 0).header.bytes.take (maxErrorSize - 1)) :=
  ⟨_, rfl, ((errorMessagesAdd_readBack_iff
    (show errorMessagesAdd noRecords (twoCalls 0) = (0, _) from rfl)).mpr (by decide)).1⟩

def fillingHeader : ErrorCall where
  type := .error
  header := ⟨List.replicate maxErrorSize 0x61, by simp [List.mem_replicate]⟩
  message := CString.ofAscii "Failed to get connection"

theorem fillingHeader_not_readBack : ∃ t', errorMessagesAdd noRecords fillingHeader = (0, t') ∧
    stringIn (t'.messages 0).header = none ∧
    stringIn (t'.messages 0).header ≠
      some (fillingHeader.header.bytes.take (maxErrorSize - 1)) := by
  have hlength : ¬ fillingHeader.header.length < maxErrorSize := by
    rw [CString.length, fillingHeader, List.length_replicate]
    exact lt_irrefl _
  have hnone : stringIn (fillingHeader.header.strncpy maxErrorSize) = none := by
    rw [stringIn_strncpy, if_neg hlength]
  refine ⟨_, rfl, hnone, ?_⟩
  exact mt (stringIn_strncpy_eq_iff fillingHeader.header).mp hlength

end ModMp
