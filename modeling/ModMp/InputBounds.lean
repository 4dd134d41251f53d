import ModMp.IndexerAndCommand

/-!
# The URI parser inside its input

All reads and copies of the parser are checked, so a call that returns has stayed inside the URI.
The parser returns exactly when the URI is not empty and no `?` comes before its second slash.
-/

namespace ModMp
open CLib

/-- No `?` stands between the first byte of the URI and its second slash. -/
def QueryAfterSlash (uri : CString) : Prop :=
  '/'.toUInt8 ∈ uri.bytes.tail → '?'.toUInt8 ∉ uri.bytes.tail.takeWhile (· != '/'.toUInt8)

/-- The parser reads and copies inside a URI of less than 2^31 bytes exactly when the URI is not
empty and its first `?`, if any, does not stand before the second slash. -/
theorem inputInit_inside_iff (aprTableMergen : AprTable → Bytes → Bytes → AprTable) (uri : CString)
    (methodNum : ℤ) (hshort : uri.length < 2 ^ 31) :
    (∃ r, inputInit aprTableMergen (some uri) methodNum = .ok r) ↔
      uri.bytes ≠ [] ∧ QueryAfterSlash uri := by
  have hint := toInt_natCast hshort
  have hlt : toInt uri.length < 2 ^ 31 := (toInt_range _).2
  unfold QueryAfterSlash
  rw [← List.drop_one]
  constructor
  · rintro ⟨r, hr⟩
    obtain ⟨indexer, command, hi, hc, _, _⟩ := helpers_of_inputInit hr
    constructor
    · intro hnil
      have hpast : uri.length < 1 := by rw [CString.length, hnil]; exact Nat.zero_lt_one
      rw [getIndexerFromUri, uri.strchr_past_nul hpast, error_bind] at hi
      cases hi
    · intro hslash hq
      obtain ⟨u, v, h, hu⟩ := List.eq_append_cons_of_mem hslash
      rw [h, takeWhile_ne_append hu] at hq
      obtain ⟨fault, hf⟩ := getCommandFromUri_of_query_first h hu hq hshort (toInt uri.length)
      rw [hf] at hc
      cases hc
  · rintro ⟨hne, hq⟩
    have hpos : 1 ≤ uri.length := List.length_pos_iff.mpr hne
    by_cases hslash : '/'.toUInt8 ∈ uri.bytes.drop 1
    · obtain ⟨u, v, h, hu⟩ := List.eq_append_cons_of_mem hslash
      have hqu := hq hslash
      rw [h, takeWhile_ne_append hu] at hqu
      have hlen := uri.length_of_split h
      have hu0 : toInt u.length = u.length := toInt_natCast (by omega)
      have hv0 : 0 ≤ toInt (v.takeWhile (· != '?'.toUInt8)).length := by
        have := (List.takeWhile_sublist (l := v) (· != '?'.toUInt8)).length_le
        rw [toInt_natCast (by omega)]
        exact Int.natCast_nonneg _
      have hc := getCommandFromUri_of_path h hu hqu rfl
      rw [if_pos hv0] at hc
      have hi := getIndexerFromUri_of_slash h hu (n := toInt uri.length) (by rw [hint, hu0]; omega)
      by_cases hnil : u = []
      · rw [if_pos hnil] at hi
        obtain ⟨parameters, hr⟩ := inputInit_of_helpers methodNum hi hc
        exact ⟨_, hr⟩
      · rw [if_neg hnil, if_pos (by rw [hu0]; exact Int.natCast_nonneg _)] at hi
        obtain ⟨parameters, hr⟩ := inputInit_of_helpers methodNum hi hc
        exact ⟨_, hr⟩
    · have hi := getIndexerFromUri_of_end hpos hlt (toInt_le_self (Int.natCast_nonneg _))
        (.inl hslash)
      have hc := getCommandFromUri_of_no_slash hpos hslash (toInt uri.length)
      obtain ⟨parameters, h⟩ := inputInit_of_helpers methodNum hi hc
      exact ⟨_, h⟩

theorem inputInit_inside_indexer_and_command :
    ∃ r, inputInit mergeEntry
      (some (CString.ofAscii "/indexer_test3/command_test2?param=value")) 0 = .ok r :=
  (inputInit_inside_iff mergeEntry _ 0 (by decide +kernel)).mpr
    (by unfold QueryAfterSlash; decide +kernel)

/-- A `?` between the slashes makes the size of the command -3, and the empty URI is read past
its NUL. -/
theorem inputInit_leaves_uri :
    inputInit mergeEntry (some (CString.ofAscii "/a?b/c")) 0 = .error (.copy 5 (-3)) ∧
      inputInit mergeEntry (some (CString.ofAscii "")) 0 = .error (.read 1) := by
  decide +kernel

end ModMp
