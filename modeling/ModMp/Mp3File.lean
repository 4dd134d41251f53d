import ModMp.Buffers
import ModMp.Interleave

/-!
# The MP3 decoder's samples

`process_mp3_file` reads once from the library, into a buffer of its own, and moves the samples to
the rows of the encoder's buffer. The encoder calls it until it returns zero. Each read of the
library has a status and whole groups of interleaved samples, as many as fit in the buffer, and the
reads after the last one deliver nothing. What the encoder does with the samples is left out.
-/

namespace ModMp

open Buffers Interleave

inductive Mpg123Status
  | ok
  | needMore
  | newFormat
  | done
  deriving DecidableEq

structure Mpg123Read (φ : Type) (channels samples : ℕ) where
  status : Mpg123Status
  groups : ℕ
  floats : List φ
  whole : floats.length = groups * channels
  fits : groups ≤ samples

inductive Mp3Fault
  | buffer
  deriving DecidableEq

/-- `mpg123_encsize(MPG123_ENC_FLOAT_32)`. -/
def mpg123Encsize : ℕ := 4

def sizeofFloat : ℕ := 4

variable {φ : Type} {channels samples : ℕ}

theorem done_div (hc : 0 < channels) (read : Mpg123Read φ channels samples) :
    read.floats.length * mpg123Encsize / (channels * mpg123Encsize) = read.groups := by
  rw [Nat.mul_div_mul_right _ _ (by decide), read.whole, Nat.mul_div_cancel _ hc]

variable [Zero φ]

def mp3OutBuff (read : Mpg123Read φ channels samples) : List φ :=
  read.floats ++ List.replicate (samples * channels - read.floats.length) 0

def bufferFloat (buff : List φ) (i : ℕ) : Except Mp3Fault φ :=
  if i < buff.length then .ok (buff.getD i 0) else .error .buffer

/-- The two loops of `process_mp3_file`. -/
def transfer (channels n : ℕ) (buff : List φ) (buffer : Rows φ) : Except Mp3Fault (Rows φ) :=
  forLoop (fun j buffer =>
    forLoop (fun k buffer =>
      (bufferFloat buff (j * channels + k)).map (Rows.set buffer k j)) channels buffer) n buffer

def processMp3File (read : Mpg123Read φ channels samples) (buffer : Rows φ) :
    Except Mp3Fault (ℕ × Rows φ) :=
  let bytesCh := channels * mpg123Encsize
  let done := read.floats.length * mpg123Encsize
  if read.status = .needMore then .ok (0, buffer)
  else if read.status = .newFormat then .ok (0, buffer)
  else if mpg123Encsize = sizeofFloat then
    (transfer channels (done / bytesCh) (mp3OutBuff read) buffer).map
      (fun buffer => (done / bytesCh, buffer))
  else .ok (done / bytesCh, buffer)

/-- The calls of `ogg_encode` from the one with the number `call` on, each with a buffer from
`vorbis_analysis_buffer`: what `vorbis_analysis_wrote` gets. -/
def oggEncode (analysisBuffer : ℕ → Rows φ) (call : ℕ) :
    List (Mpg123Read φ channels samples) → Except Mp3Fault (List (ℕ × Rows φ))
  | [] => .ok []
  | read :: reads =>
      (processMp3File read (analysisBuffer call)).bind (fun (samplesRead, buffer) =>
        if samplesRead = 0 then .ok []
        else (oggEncode analysisBuffer (call + 1) reads).map ((samplesRead, buffer) :: ·))

def channelOutput (k : ℕ) (written : List (ℕ × Rows φ)) : List φ :=
  written.flatMap (fun (samplesRead, buffer) => buffer.part k 0 samplesRead)

def Mpg123Read.delivers (read : Mpg123Read φ channels samples) : Bool :=
  read.status ≠ .needMore ∧ read.status ≠ .newFormat ∧ 0 < read.groups

theorem transfer_eq_ok {n : ℕ} {buff : List φ} (hn : n * channels ≤ buff.length)
    (buffer : Rows φ) :
    transfer channels n buff buffer =
      .ok (buffer.write channels 0 n (fun k j => buff.getD (j * channels + k) 0)) := by
  apply Rows.forLoop_writeColumn
  intro j hj b
  apply Rows.forLoop_setColumn (fun k => bufferFloat buff (j * channels + k))
    (fun k => buff.getD (j * channels + k) 0)
  intro k hk
  exact if_pos ((place_lt hj hk).trans_le hn)

theorem length_mp3OutBuff (read : Mpg123Read φ channels samples) :
    (mp3OutBuff read).length = samples * channels := by
  have hle : read.floats.length ≤ samples * channels := by
    rw [read.whole]
    exact Nat.mul_le_mul_right _ read.fits
  rw [mp3OutBuff, List.length_append, List.length_replicate, Nat.add_sub_cancel' hle]

theorem processMp3File_eq_ok (hc : 0 < channels) {read : Mpg123Read φ channels samples}
    (hneed : read.status ≠ .needMore) (hformat : read.status ≠ .newFormat) (buffer : Rows φ) :
    processMp3File read buffer = .ok (read.groups, buffer.write channels 0 read.groups
      (fun k j => (mp3OutBuff read).getD (j * channels + k) 0)) := by
  have hfloat : mpg123Encsize = sizeofFloat := rfl
  have hgroups : read.groups * channels ≤ (mp3OutBuff read).length := by
    rw [length_mp3OutBuff]
    exact Nat.mul_le_mul_right _ read.fits
  rw [processMp3File, if_neg hneed, if_neg hformat, if_pos hfloat, done_div hc,
    transfer_eq_ok hgroups]
  rfl

theorem processMp3File_delivers (hc : 0 < channels) {read : Mpg123Read φ channels samples}
    (h : read.delivers = true) (buffer : Rows φ) :
    ∃ written, processMp3File read buffer = .ok (read.groups, written) ∧
      ∀ k < channels, written.part k 0 read.groups = deinterleave channels k read.floats := by
  obtain ⟨hneed, hformat, -⟩ := of_decide_eq_true h
  refine ⟨_, processMp3File_eq_ok hc hneed hformat buffer, fun k hk => ?_⟩
  rw [Rows.part_write _ _ _ _ hk, deinterleave, read.whole, Nat.mul_div_cancel _ hc]
  apply List.map_congr_left
  intro j hj
  have hlt : j * channels + k < read.floats.length :=
    read.whole ▸ place_lt (List.mem_range.mp hj) hk
  exact List.getD_append _ _ _ _ hlt

theorem processMp3File_ends (hc : 0 < channels) {read : Mpg123Read φ channels samples}
    (h : ¬ read.delivers = true) (buffer : Rows φ) :
    ∃ written, processMp3File read buffer = .ok (0, written) := by
  by_cases hneed : read.status = .needMore
  · exact ⟨buffer, if_pos hneed⟩
  · by_cases hformat : read.status = .newFormat
    · exact ⟨buffer, (if_neg hneed).trans (if_pos hformat)⟩
    · have hzero : read.groups = 0 := by
        by_contra hne
        exact h (decide_eq_true ⟨hneed, hformat, Nat.pos_of_ne_zero hne⟩)
      exact ⟨_, hzero ▸ processMp3File_eq_ok hc hneed hformat buffer⟩

/-- The encoder gets the reads before the first one that does not deliver. -/
theorem oggEncode_eq_ok (hc : 0 < channels) (analysisBuffer : ℕ → Rows φ) (call : ℕ)
    (reads : List (Mpg123Read φ channels samples)) :
    ∃ written, oggEncode analysisBuffer call reads = .ok written ∧
      ∀ k < channels, channelOutput k written =
        (reads.takeWhile Mpg123Read.delivers).flatMap
          (fun read => deinterleave channels k read.floats) := by
  induction reads generalizing call with
  | nil => exact ⟨[], rfl, fun _ _ => rfl⟩
  | cons read reads ih =>
      rw [oggEncode]
      by_cases hdelivers : read.delivers = true
      · obtain ⟨buffer, hprocess, hpart⟩ :=
          processMp3File_delivers hc hdelivers (analysisBuffer call)
        obtain ⟨written, hrest, houtput⟩ := ih (call + 1)
        have hpos : read.groups ≠ 0 := (of_decide_eq_true hdelivers).2.2.ne'
        refine ⟨(read.groups, buffer) :: written, ?_, fun k hk => ?_⟩
        · rw [hprocess, hrest]
          exact if_neg hpos
        · rw [List.takeWhile_cons_of_pos hdelivers, List.flatMap_cons, ← houtput k hk,
            ← hpart k hk]
          rfl
      · obtain ⟨buffer, hprocess⟩ := processMp3File_ends hc hdelivers (analysisBuffer call)
        refine ⟨[], ?_, fun k _ => ?_⟩
        · rw [hprocess]
          rfl
        · rw [List.takeWhile_cons_of_neg hdelivers]
          rfl

/-- The encoder gets all samples if and only if nothing is read in and after the first read that
does not deliver. -/
theorem oggEncode_delivers_iff (hc : 0 < channels) (analysisBuffer : ℕ → Rows φ)
    (reads : List (Mpg123Read φ channels samples)) :
    ∃ written, oggEncode analysisBuffer 0 reads = .ok written ∧
      ((∀ k < channels, channelOutput k written =
          deinterleave channels k (reads.map Mpg123Read.floats).flatten) ↔
        ∀ read ∈ reads.dropWhile Mpg123Read.delivers, read.groups = 0) := by
  obtain ⟨written, heq, houtput⟩ := oggEncode_eq_ok hc analysisBuffer 0 reads
  refine ⟨written, heq, ?_⟩
  have hall : ∀ k < channels, deinterleave channels k (reads.map Mpg123Read.floats).flatten =
      channelOutput k written ++ (reads.dropWhile Mpg123Read.delivers).flatMap
        (fun read => deinterleave channels k read.floats) := by
    intro k hk
    rw [deinterleave_flatten hk, houtput k hk, ← List.flatMap_append,
      List.takeWhile_append_dropWhile, List.flatMap_map]
    intro l hl
    obtain ⟨read, -, rfl⟩ := List.mem_map.mp hl
    exact ⟨read.groups, read.whole.trans (Nat.mul_comm _ _)⟩
  have hlength : ∀ (k : ℕ) (read : Mpg123Read φ channels samples),
      deinterleave channels k read.floats = [] ↔ read.groups = 0 := by
    intro k read
    rw [← List.length_eq_zero_iff, length_deinterleave, read.whole, Nat.mul_div_cancel _ hc]
  constructor
  · intro h read hread
    have hnil := List.append_right_eq_self.mp ((hall 0 hc).symm.trans (h 0 hc).symm)
    exact (hlength 0 read).mp (List.flatMap_eq_nil_iff.mp hnil read hread)
  · intro h k hk
    have hnil : (reads.dropWhile Mpg123Read.delivers).flatMap
        (fun read => deinterleave channels k read.floats) = [] :=
      List.flatMap_eq_nil_iff.mpr (fun read hread => (hlength k read).mpr (h read hread))
    rw [hall k hk, hnil, List.append_nil]

def stereoReads : List (Mpg123Read ℤ 2 4) :=
  [⟨.ok, 1, [3, 4], rfl, by decide⟩, ⟨.done, 0, [], rfl, by decide⟩]

theorem oggEncode_delivers_stereo :
    ∃ written, oggEncode (fun _ _ _ => 0) 0 stereoReads = .ok written ∧
      ((∀ k < 2, channelOutput k written =
          deinterleave 2 k (stereoReads.map Mpg123Read.floats).flatten) ↔
        ∀ read ∈ stereoReads.dropWhile Mpg123Read.delivers, read.groups = 0) :=
  oggEncode_delivers_iff (by decide) _ stereoReads

def formatChange : List (Mpg123Read ℤ 1 4) :=
  [⟨.ok, 1, [5], rfl, by decide⟩, ⟨.newFormat, 0, [], rfl, by decide⟩,
    ⟨.ok, 1, [7], rfl, by decide⟩, ⟨.done, 0, [], rfl, by decide⟩]

/-- The samples behind the change are lost. -/
theorem formatChange_truncates : ¬ ∀ reads : List (Mpg123Read ℤ 1 4),
    ∃ written, oggEncode (fun _ _ _ => 0) 0 reads = .ok written ∧
      ∀ k < 1, channelOutput k written =
        deinterleave 1 k (reads.map Mpg123Read.floats).flatten := by
  intro h
  obtain ⟨written, heq, houtput⟩ := h formatChange
  have hrun : (oggEncode (fun _ _ _ => 0) 0 formatChange).map (channelOutput 0) = .ok [5] := rfl
  rw [heq] at hrun
  have hfive : channelOutput 0 written = [5] := Except.ok.inj hrun
  have hboth : channelOutput 0 written = [5, 7] := houtput 0 Nat.one_pos
  rw [hfive] at hboth
  cases hboth

end ModMp
