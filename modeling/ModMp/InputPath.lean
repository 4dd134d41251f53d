import ModMp.InputRouting

/-!
# The path of a URI and its two parts

The path is what stands before the query. For a URI below 2^31 bytes, whose length an `int` holds,
the indexer and the command are its two parts: the text between the first two slashes, NULL when it
is empty, and the text after the second slash, NULL when there is no such slash.
-/

namespace ModMp
open CLib

def pathOf (uri : CString) : Bytes := uri.bytes.takeWhile (· != '?'.toUInt8)

/-- The first `?` of a URI, if any, comes after its second slash. -/
def QueryAfterCommand (uri : CString) : Prop :=
  '?'.toUInt8 ∈ uri.bytes → '/'.toUInt8 ∈ (pathOf uri).tail

/-- The path is put together again from the indexer and the command. -/
structure SplitsPath (path : Bytes) (indexer command : Option Bytes) : Prop where
  no_slash : '/'.toUInt8 ∉ indexer.getD []
  null_iff : indexer = none ↔ indexer.getD [] = []
  joined : if '/'.toUInt8 ∈ path.tail
    then ∃ c, command = some c ∧ path = '/'.toUInt8 :: (indexer.getD [] ++ '/'.toUInt8 :: c)
    else command = none ∧ path = '/'.toUInt8 :: indexer.getD []

theorem cutName_whole {w : Bytes} {n : ℤ} (hshort : w.length < 2 ^ 31)
    (hn : (w.length : ℤ) ≤ n) :
    ∃ s, cutName w n = .ok s ∧ s.getD [] = w ∧ (s = none ↔ w = []) := by
  have hint := toInt_natCast hshort
  by_cases hnil : w = []
  · exact ⟨none, by rw [hnil, cutName_nil], hnil.symm, iff_of_true rfl hnil⟩
  · refine ⟨some w, ?_, rfl, iff_of_false (Option.some_ne_none _) hnil⟩
    rw [cutName_of_le hnil (hint.trans_le hn), hint, if_pos (Int.natCast_nonneg _),
      Int.toNat_natCast, List.take_length]

theorem cutAt_whole {name : Bytes} {n : ℤ} (h : n = name.length + 1) :
    (cutAt name n).getD [] = name ∧ (cutAt name n = none ↔ name = []) := by
  unfold cutAt
  by_cases h1 : 1 < n
  · have hne : name ≠ [] := List.length_pos_iff.mp (by omega)
    rw [if_pos h1, Option.getD_some, List.take_of_length_le (by omega)]
    exact ⟨rfl, iff_of_false (Option.some_ne_none _) hne⟩
  · have hnil : name = [] := List.length_eq_zero_iff.mp (by omega)
    rw [if_neg h1, hnil]
    exact ⟨rfl, iff_of_true rfl rfl⟩

section Split
variable {aprTableMergen : AprTable → Bytes → Bytes → AprTable} {uri : CString} {u v : Bytes}

theorem tail_pathOf (hp : ∃ rest, uri.bytes = '/'.toUInt8 :: rest) :
    (pathOf uri).tail = (uri.bytes.drop 1).takeWhile (· != '?'.toUInt8) ∧
      pathOf uri = '/'.toUInt8 :: (pathOf uri).tail := by
  obtain ⟨rest, hrest⟩ := hp
  have hpath : pathOf uri = '/'.toUInt8 :: rest.takeWhile (· != '?'.toUInt8) := by
    rw [pathOf, hrest, List.takeWhile_cons_of_pos (by decide)]
  rw [hpath, hrest]
  exact ⟨rfl, rfl⟩

theorem takeWhile_question_of_slash (h : uri.bytes.drop 1 = u ++ '/'.toUInt8 :: v)
    (hq : '?'.toUInt8 ∉ u) : (uri.bytes.drop 1).takeWhile (· != '?'.toUInt8) =
      u ++ '/'.toUInt8 :: v.takeWhile (· != '?'.toUInt8) := by
  have hall : ∀ b ∈ u, (b != '?'.toUInt8) = true := by
    intro b hb
    have hne : b ≠ '?'.toUInt8 := fun heq => hq (heq ▸ hb)
    simpa using hne
  rw [h, List.takeWhile_append_of_pos hall, List.takeWhile_cons_of_pos (by decide)]

theorem splits_of_slash (hshort : uri.length < 2 ^ 31)
    (hp : ∃ rest, uri.bytes = '/'.toUInt8 :: rest)
    (h : uri.bytes.drop 1 = u ++ '/'.toUInt8 :: v) (hu : '/'.toUInt8 ∉ u) (hq : '?'.toUInt8 ∉ u)
    (methodNum : ℤ) :
    ∃ r, routing aprTableMergen uri methodNum = .ok r ∧ SplitsPath (pathOf uri) r.1 r.2 := by
  obtain ⟨htail, hcons⟩ := tail_pathOf hp
  rw [takeWhile_question_of_slash h hq] at htail
  have hmem : '/'.toUInt8 ∈ (pathOf uri).tail := by rw [htail]; simp
  have hlen := uri.length_of_split h
  have hle := (List.takeWhile_sublist (l := v) (· != '?'.toUInt8)).length_le
  have hint : toInt (v.takeWhile (· != '?'.toUInt8)).length =
      (v.takeWhile (· != '?'.toUInt8)).length := toInt_natCast (by omega)
  have hcommand := getCommandFromUri_of_path h hu hq rfl
  rw [hint, if_pos (Int.natCast_nonneg _), Int.toNat_natCast, List.take_length] at hcommand
  obtain ⟨s, hs, hsu, hnull⟩ := cutName_whole (w := u) (n := toInt uri.length) (by omega)
    (by rw [toInt_natCast hshort]; omega)
  obtain ⟨status, hi⟩ := (getIndexerFromUri_eq_cutName h hu).mpr hs
  refine ⟨_, routing_eq_ok_iff.mpr ⟨_, _, hi, hcommand, rfl⟩, by rw [hsu]; exact hu,
    by rw [hsu]; exact hnull, ?_⟩
  rw [if_pos hmem, hsu]
  exact ⟨_, rfl, by rw [hcons, htail]⟩

theorem splits_of_no_slash (hshort : uri.length < 2 ^ 31)
    (hp : ∃ rest, uri.bytes = '/'.toUInt8 :: rest)
    (h : '/'.toUInt8 ∉ uri.bytes.drop 1) (hq : '?'.toUInt8 ∉ uri.bytes) (methodNum : ℤ) :
    ∃ r, routing aprTableMergen uri methodNum = .ok r ∧ SplitsPath (pathOf uri) r.1 r.2 := by
  obtain ⟨htail, hcons⟩ := tail_pathOf hp
  rw [takeWhile_ne_of_notMem (fun hmem => hq (List.mem_of_mem_drop hmem))] at htail
  have hnot : '/'.toUInt8 ∉ (pathOf uri).tail := by rw [htail]; exact h
  have hpos : 1 ≤ uri.length := by
    obtain ⟨rest, hrest⟩ := hp
    rw [CString.length, hrest, List.length_cons]
    exact Nat.succ_le_succ (Nat.zero_le _)
  have hlen : (uri.bytes.drop 1).length + 1 = uri.length := by
    rw [List.length_drop]
    exact Nat.sub_add_cancel hpos
  have hsize : toInt uri.length = (uri.bytes.drop 1).length + 1 := by
    rw [toInt_natCast hshort]
    omega
  have hr := routing_of_no_slash aprTableMergen hpos h methodNum
  obtain ⟨hwhole, hnull⟩ := cutAt_whole hsize
  generalize cutAt (uri.bytes.drop 1) (toInt uri.length) = indexer at hr hwhole hnull
  refine ⟨_, hr, by rw [hwhole]; exact h, by rw [hwhole]; exact hnull, ?_⟩
  rw [if_neg hnot, hwhole]
  exact ⟨rfl, by rw [hcons, htail]⟩

end Split

/-- A URI whose query, if any, comes after its second slash splits into its indexer and its
command. -/
theorem splitsPath_of_short (aprTableMergen : AprTable → Bytes → Bytes → AprTable) (uri : CString)
    (methodNum : ℤ) (hshort : uri.length < 2 ^ 31)
    (hp : ∃ rest, uri.bytes = '/'.toUInt8 :: rest) (hq : QueryAfterCommand uri) :
    ∃ r, routing aprTableMergen uri methodNum = .ok r ∧ SplitsPath (pathOf uri) r.1 r.2 := by
  by_cases hslash : '/'.toUInt8 ∈ uri.bytes.drop 1
  · obtain ⟨u, v, h, hu⟩ := List.eq_append_cons_of_mem hslash
    have hqu : '?'.toUInt8 ∉ u := by
      intro hmem
      have hquery : '?'.toUInt8 ∈ uri.bytes := by
        apply List.mem_of_mem_drop (i := 1)
        rw [h]
        exact List.mem_append_left _ hmem
      obtain ⟨w, x, rfl, hw⟩ := List.eq_append_cons_of_mem hmem
      have hpath := hq hquery
      rw [(tail_pathOf hp).1, h, List.append_assoc, List.cons_append,
        takeWhile_ne_append hw] at hpath
      exact hu (List.mem_append_left _ hpath)
    exact splits_of_slash hshort hp h hu hqu methodNum
  · have hquery : '?'.toUInt8 ∉ uri.bytes := by
      intro hmem
      have hpath := hq hmem
      rw [(tail_pathOf hp).1] at hpath
      exact hslash ((List.takeWhile_sublist _).subset hpath)
    exact splits_of_no_slash hshort hp hslash hquery methodNum

theorem splitsPath_indexer_and_command :
    ∃ r, routing mergeEntry (CString.ofAscii "//list/all?a=b") 0 = .ok r ∧
      SplitsPath (pathOf (CString.ofAscii "//list/all?a=b")) r.1 r.2 :=
  splitsPath_of_short mergeEntry (CString.ofAscii "//list/all?a=b") 0 (by decide +kernel)
    ⟨"/list/all?a=b".toList.map Char.toUInt8, by decide +kernel⟩
    (by unfold QueryAfterCommand; decide +kernel)

end ModMp
