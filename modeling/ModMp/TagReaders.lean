import ModMp.FlacEntries
import ModMp.Id3Numbers

/-!
# The lengths that the tag readers compute

Both readers divide a number of samples by a sample rate. The FLAC reader takes the rate from each
STREAMINFO block. `read_id3` takes it from `mpg123_getformat` and does not test the status of the
call, and a rate that is not written is zero. What the library returns is given, call by call; a
missing ID3v2 structure is dereferenced.
-/

namespace ModMp
open CLib StringPool MusicFile

/-- The outcomes of the calls of `read_id3`: a handle, whether the scan succeeds, whether ID3 data
is found, the ID3v2 structure or NULL if the call succeeds, the rate if it is written, and the
number of samples. -/
structure Mpg123Calls where
  handle : Bool
  scan : Bool
  metaId3 : Bool
  id3 : Option (Option (List Id3v2Text))
  getformat : Option ℤ
  length : ℤ

/-- The end of `read_id3`, from `mpg123_getformat` on. -/
def setLength (calls : Mpg123Calls) (s : Pool × MusicFile) :
    Except TagFault (ℤ × Pool × MusicFile) :=
  let sampleRate := calls.getformat.getD 0
  let sampleCount := toInt calls.length
  if sampleRate = 0 then .error .divideByZero
  else
    let length := toInt (sampleCount.tdiv sampleRate)
    .ok (0, s.1, if 0 ≤ length then { s.2 with length := length } else s.2)

def readId3 (calls : Mpg123Calls) (s : Pool × MusicFile) :
    Except TagFault (ℤ × Pool × MusicFile) :=
  if calls.handle = false then .ok (-1, s)
  else if calls.scan = false then .ok (-3, s)
  else if calls.metaId3 = false then .ok (-6, s)
  else
    match calls.id3 with
    | none => .ok (-5, s)
    | some none => .error .null
    | some (some id3v2) =>
        match readTags id3v2 s with
        | none => .error .entry
        | some s => setLength calls s

/-- The calls before the length succeed. -/
structure Mpg123Calls.ReachesLength (calls : Mpg123Calls) : Prop where
  handle : calls.handle = true
  scan : calls.scan = true
  metaId3 : calls.metaId3 = true
  id3 : ∃ id3v2, calls.id3 = some (some id3v2)

/-- The rate is written, and it is not zero. -/
def Mpg123Calls.RateGiven (calls : Mpg123Calls) : Prop :=
  ∃ rate, calls.getformat = some rate ∧ rate ≠ 0

theorem setLength_divides_iff (calls : Mpg123Calls) (s : Pool × MusicFile) :
    setLength calls s ≠ .error .divideByZero ↔ calls.RateGiven := by
  rw [setLength, Mpg123Calls.RateGiven]
  cases calls.getformat with
  | none =>
      refine ⟨fun h => absurd (if_pos rfl) h, ?_⟩
      rintro ⟨rate, hrate, -⟩
      cases hrate
  | some rate =>
      by_cases hrate : rate = 0
      · refine ⟨fun h => absurd (if_pos hrate) h, ?_⟩
        rintro ⟨rate', heq, hne⟩
        cases heq
        exact absurd hrate hne
      · refine ⟨fun _ => ⟨rate, rfl, hrate⟩, fun _ => ?_⟩
        rw [Option.getD_some, if_neg hrate]
        exact nofun

theorem readId3_of_reaches {calls : Mpg123Calls} (h : calls.ReachesLength) (pool : Pool)
    (length : ℤ) : ∃ s, readId3 calls (pool, cleared length) = setLength calls s := by
  obtain ⟨id3v2, hid3⟩ := h.id3
  obtain ⟨-, -, s, hread, -⟩ := readTags_split id3v2 pool length
  refine ⟨s, ?_⟩
  rw [readId3, h.handle, h.scan, h.metaId3, hid3]
  dsimp only
  rw [hread]
  rfl

theorem readId3_of_not_reaches {calls : Mpg123Calls} (h : ¬ calls.ReachesLength)
    (s : Pool × MusicFile) : readId3 calls s ≠ .error .divideByZero := by
  rw [readId3]
  split_ifs with hhandle hscan hmeta
  · exact nofun
  · exact nofun
  · exact nofun
  · cases hid3 : calls.id3 with
    | none => exact nofun
    | some id3 =>
        cases id3 with
        | none => exact nofun
        | some id3v2 =>
            exact absurd ⟨Bool.eq_true_of_not_eq_false hhandle, Bool.eq_true_of_not_eq_false hscan,
              Bool.eq_true_of_not_eq_false hmeta, id3v2, hid3⟩ h

theorem readId3_divides_iff (calls : Mpg123Calls) (pool : Pool) (length : ℤ) :
    readId3 calls (pool, cleared length) ≠ .error .divideByZero ↔
      (calls.ReachesLength → calls.RateGiven) := by
  by_cases h : calls.ReachesLength
  · obtain ⟨s, heq⟩ := readId3_of_reaches h pool length
    rw [heq, setLength_divides_iff]
    exact ⟨fun hrate _ => hrate, fun hrate => hrate h⟩
  · exact iff_of_true (readId3_of_not_reaches h _) (fun hreaches => absurd hreaches h)

theorem exists_rate_missing {blocks : List MetadataBlock} (h : ¬ ∀ b ∈ blocks, b.RateSet) :
    ∃ l totalSamples m, blocks = l ++ .streaminfo totalSamples 0 :: m ∧ ∀ b ∈ l, b.RateSet := by
  induction blocks with
  | nil => exact absurd nofun h
  | cons block blocks ih =>
      by_cases hblock : block.RateSet
      · have hrest : ¬ ∀ b ∈ blocks, b.RateSet :=
          fun hall => h (List.forall_mem_cons.mpr ⟨hblock, hall⟩)
        obtain ⟨l, totalSamples, m, rfl, hl⟩ := ih hrest
        exact ⟨block :: l, totalSamples, m, rfl, List.forall_mem_cons.mpr ⟨hblock, hl⟩⟩
      · cases block with
        | streaminfo totalSamples sampleRate =>
            obtain rfl : sampleRate = 0 := not_not.mp hblock
            exact ⟨[], totalSamples, blocks, rfl, nofun⟩
        | vorbisComment comments => exact absurd trivial hblock
        | other => exact absurd trivial hblock

/-- The blocks of a file, if it can be opened. -/
def blocksOf : Option (MetadataBlock × List MetadataBlock) → List MetadataBlock
  | some (block, blocks) => block :: blocks
  | none => []

theorem readFlacLevel1_divides_iff {findEntryFrom : List Bytes → ℕ → CString → ℤ}
    (hfind : FindsEntries findEntryFrom) (iter : Option (MetadataBlock × List MetadataBlock))
    (pool : Pool) (length : ℤ) {fuel : ℕ}
    (hfuel : ((blocksOf iter).flatMap MetadataBlock.comments).length < fuel) :
    readFlacLevel1 findEntryFrom fuel iter (pool, cleared length) ≠ .error .divideByZero ↔
      ∀ b ∈ blocksOf iter, b.RateSet := by
  cases iter with
  | none => exact iff_of_true nofun nofun
  | some file =>
      change ((blocksOf (some file)).foldlM (readBlock findEntryFrom fuel) _).map _ ≠ _ ↔ _
      by_cases hrate : ∀ b ∈ blocksOf (some file), b.RateSet
      · obtain ⟨s, hrun, -⟩ := readBlocks_hold (s := (pool, cleared length)) hfind hrate
          (holds_cleared pool length)
        rw [hrun fuel hfuel]
        exact iff_of_true nofun hrate
      · obtain ⟨l, totalSamples, m, hblocks, hl⟩ := exists_rate_missing hrate
        obtain ⟨s, hrun, -⟩ := readBlocks_hold (s := (pool, cleared length)) hfind hl
          (holds_cleared pool length)
        rw [hblocks, List.flatMap_append, List.length_append] at hfuel
        refine iff_of_false (not_not.mpr ?_) hrate
        rw [hblocks, List.foldlM_append, hrun fuel (by omega)]
        rfl

/-- The readers divide by no zero if and only if every STREAMINFO block has a rate, and the format
of an MP3 file with ID3v2 data is got with a rate. -/
theorem tagReaders_divide_iff {findEntryFrom : List Bytes → ℕ → CString → ℤ}
    (hfind : FindsEntries findEntryFrom) (iter : Option (MetadataBlock × List MetadataBlock))
    (calls : Mpg123Calls) (pool : Pool) (length : ℤ) :
    (∃ n, ∀ fuel, n ≤ fuel →
      (readFlacLevel1 findEntryFrom fuel iter (pool, cleared length) ≠ .error .divideByZero ↔
        ∀ b ∈ blocksOf iter, b.RateSet)) ∧
    (readId3 calls (pool, cleared length) ≠ .error .divideByZero ↔
      (calls.ReachesLength → calls.RateGiven)) :=
  ⟨⟨_, fun _ hfuel => readFlacLevel1_divides_iff hfind iter pool length (Nat.lt_of_succ_le hfuel)⟩,
    readId3_divides_iff calls pool length⟩

def formatless : Mpg123Calls := ⟨true, true, true, some (some []), none, 0⟩

theorem tagReaders_divide_formatless :
    (∃ n, ∀ fuel, n ≤ fuel →
      (readFlacLevel1 firstEntryFrom fuel (some (.streaminfo 88200 44100, titledBlocks))
          ([], cleared 0) ≠ .error .divideByZero ↔
        ∀ b ∈ blocksOf (some (.streaminfo 88200 44100, titledBlocks)), b.RateSet)) ∧
    (readId3 formatless ([], cleared 0) ≠ .error .divideByZero ↔
      (formatless.ReachesLength → formatless.RateGiven)) :=
  tagReaders_divide_iff firstEntryFrom_finds _ formatless [] 0

/-- A STREAMINFO block with the rate zero is enough. -/
theorem streaminfo_divides : ¬ ∀ (iter : Option (MetadataBlock × List MetadataBlock))
    (calls : Mpg123Calls) (fuel : ℕ),
    readFlacLevel1 firstEntryFrom fuel iter ([], cleared 0) ≠ .error .divideByZero ∧
      readId3 calls ([], cleared 0) ≠ .error .divideByZero :=
  fun h => (h (some (.streaminfo 0 0, [])) formatless 0).1 rfl

end ModMp
