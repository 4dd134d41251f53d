import ModMp.FlacFile

/-!
# Deliveries into the FLAC buffer

The samples of a channel that are left are those in the buffer and those of the frames that the
decoder has not delivered. A delivery moves samples from the second to the first, and a copy reads
its samples inside of the buffer.
-/

namespace ModMp

open Buffers

variable {φ : Type} (toFloat : ℤ → ℕ → φ)

def FlacFrame.channel (frame : FlacFrame) (k : ℕ) : List φ :=
  (List.range frame.blocksize).map (fun j => toFloat (frame.buffer k j) frame.bitsPerSample)

namespace FlacDecoder

def frames (decoder : FlacDecoder) : List FlacFrame :=
  decoder.pending.reduceOption ++ decoder.last.toList

def channel (decoder : FlacDecoder) (k : ℕ) : List φ :=
  decoder.frames.flatMap (fun frame => frame.channel toFloat k)

def total (decoder : FlacDecoder) : ℕ := (decoder.frames.map FlacFrame.blocksize).sum

theorem length_channel (decoder : FlacDecoder) (k : ℕ) :
    (decoder.channel toFloat k).length = decoder.total := by
  rw [channel, total, List.length_flatMap]
  congr 2
  funext frame
  rw [FlacFrame.channel, List.length_map, List.length_range]

end FlacDecoder

namespace FlacFile

structure Ready (c : ℕ) (flac : FlacFile φ) : Prop where
  room : flac.bufferSampleSeek + flac.bufferSampleCount ≤ flac.bufferSampleLen
  channels : 0 < flac.bufferSampleCount → flac.channels = c
  frames : ∀ frame ∈ flac.decoder.frames, frame.channels = c
  ended : flac.eos = true → flac.decoder.frames = []

def unread (flac : FlacFile φ) (k : ℕ) : List φ :=
  flac.buf.part k flac.bufferSampleSeek flac.bufferSampleCount

def left (flac : FlacFile φ) (k : ℕ) : List φ :=
  flac.unread k ++ flac.decoder.channel toFloat k

def numLeft (flac : FlacFile φ) : ℕ := flac.bufferSampleCount + flac.decoder.total

theorem length_left (flac : FlacFile φ) (k : ℕ) :
    (flac.left toFloat k).length = flac.numLeft := by
  rw [left, List.length_append, unread, Rows.length_part, FlacDecoder.length_channel, numLeft]

theorem left_of_empty {flac : FlacFile φ} (k : ℕ) (h : flac.bufferSampleCount = 0) :
    flac.left toFloat k = flac.decoder.channel toFloat k := by
  rw [left, unread, h]
  rfl

/-- The next frame goes into a buffer without unread samples, and what is left stays the same. -/
theorem deliver {c : ℕ} {flac : FlacFile φ} {frame : FlacFrame} {decoder : FlacDecoder}
    (h : Ready c flac) (hcount : flac.bufferSampleCount = 0) (heos : flac.eos = false)
    (hnext : flac.decoder.frames = frame :: decoder.frames) :
    ∃ flac₂, { flac with decoder := decoder }.write toFloat frame = .ok flac₂ ∧ Ready c flac₂ ∧
      flac₂.decoder = decoder ∧ flac₂.numLeft = flac.numLeft ∧
      ∀ k < c, flac₂.left toFloat k = flac.left toFloat k := by
  have hframes := h.frames
  rw [hnext] at hframes
  have hframe : frame.channels = c := hframes frame List.mem_cons_self
  refine ⟨_, write_eq_ok toFloat frame hcount, ⟨?_, ?_, ?_, ?_⟩, rfl, ?_, ?_⟩
  · exact (Nat.zero_add _).le
  · exact fun _ => hframe
  · exact fun other hother => hframes other (List.mem_cons_of_mem _ hother)
  · exact fun hended => absurd (heos.symm.trans hended) Bool.false_ne_true
  · rw [numLeft, numLeft, hcount, Nat.zero_add, FlacDecoder.total, FlacDecoder.total, hnext,
      List.map_cons, List.sum_cons]
  · intro k hk
    rw [left_of_empty toFloat k hcount, FlacDecoder.channel, hnext, List.flatMap_cons, left]
    congr 1
    exact Rows.part_write flac.buf 0 frame.blocksize
      (fun i j => toFloat (frame.buffer i j) frame.bitsPerSample)
      (hframe.symm ▸ hk : k < frame.channels)

theorem Ready.of_frames {c : ℕ} {flac : FlacFile φ} {decoder : FlacDecoder} (h : Ready c flac)
    (hframes : flac.decoder.frames = decoder.frames) :
    Ready c { flac with decoder := decoder } :=
  ⟨h.room, h.channels, fun frame hframe => h.frames frame (hframes ▸ hframe),
    fun hended => hframes ▸ h.ended hended⟩

theorem processSingle_ready {c : ℕ} {flac : FlacFile φ} (h : Ready c flac)
    (hcount : flac.bufferSampleCount = 0) (heos : flac.eos = false) :
    ∃ flac₂ ended, flac.processSingle toFloat = .ok (flac₂, ended) ∧ Ready c flac₂ ∧
      (ended = true → flac₂.decoder.frames = []) ∧ flac₂.numLeft = flac.numLeft ∧
      ∀ k < c, flac₂.left toFloat k = flac.left toFloat k := by
  rcases hdecoder : flac.decoder with ⟨pending, last⟩
  rw [processSingle, hdecoder]
  cases pending with
  | cons delivered rest =>
      cases delivered with
      | some frame =>
          have hnext : flac.decoder.frames = frame :: FlacDecoder.frames ⟨rest, last⟩ := by
            rw [hdecoder]
            rfl
          obtain ⟨flac₂, hwrite, hready, -, hnum, hleft⟩ := deliver toFloat h hcount heos hnext
          dsimp only
          rw [hwrite]
          exact ⟨flac₂, false, rfl, hready, fun h => absurd h Bool.false_ne_true, hnum, hleft⟩
      | none =>
          have hframes : flac.decoder.frames = FlacDecoder.frames ⟨rest, last⟩ := by
            rw [hdecoder]
            rfl
          refine ⟨_, false, rfl, h.of_frames hframes, fun h => absurd h Bool.false_ne_true,
            ?_, ?_⟩
          · rw [numLeft, numLeft, FlacDecoder.total, FlacDecoder.total, hframes]
          · intro k _
            rw [left, left, FlacDecoder.channel, FlacDecoder.channel, hframes]
            rfl
  | nil =>
      cases last with
      | some frame =>
          have hnext : flac.decoder.frames = frame :: FlacDecoder.frames ⟨[], none⟩ := by
            rw [hdecoder]
            rfl
          obtain ⟨flac₂, hwrite, hready, hrest, hnum, hleft⟩ := deliver toFloat h hcount heos hnext
          dsimp only
          rw [hwrite]
          exact ⟨flac₂, true, rfl, hready, fun _ => by rw [hrest]; rfl, hnum, hleft⟩
      | none =>
          exact ⟨flac, true, rfl, h, fun _ => by rw [hdecoder]; rfl, rfl, fun _ _ => rfl⟩

theorem wavPermuteMatrix_perm {c : ℕ} (h : 0 < c ∧ c ≤ 8) :
    (wavPermuteMatrix.getD (c - 1) []).Perm (List.range c) := by
  obtain ⟨hpos, hle⟩ := h
  interval_cases c <;> decide

/-- The decoded channel that is handed out as channel `i` of `c`. -/
def wavPermute (c i : ℕ) : ℕ := (wavPermuteMatrix.getD (c - 1) []).getD i 0

theorem permuteEntry_eq_ok {c i : ℕ} (h : 0 < c ∧ c ≤ 8) (hi : i < c) :
    permuteEntry (c - 1) i = .ok (wavPermute c i) ∧ wavPermute c i < c := by
  have hperm := wavPermuteMatrix_perm h
  have hlength := hperm.length_eq
  rw [List.length_range] at hlength
  refine ⟨if_pos (by omega), ?_⟩
  rw [wavPermute, List.getD_eq_getElem?_getD, List.getElem?_eq_getElem (by omega), Option.getD_some]
  exact List.mem_range.mp (hperm.mem_iff.mp (List.getElem_mem _))

theorem copyOut_eq_ok {c copy realsamples : ℕ} {flac : FlacFile φ} (hc : 0 < c ∧ c ≤ 8)
    (h : Ready c flac) (hcount : 0 < flac.bufferSampleCount)
    (hcopy : copy ≤ flac.bufferSampleCount) (buffer : Rows φ) :
    flac.copyOut buffer realsamples copy = .ok (buffer.write c realsamples copy
      (fun i j => flac.buf (wavPermute c i) (j + flac.bufferSampleSeek))) := by
  have hroom := h.room
  rw [copyOut, h.channels hcount]
  apply Rows.forLoop_writeRow
  intro i hi b
  obtain ⟨hentry, hlt⟩ := permuteEntry_eq_ok hc hi
  rw [hentry]
  apply Rows.forLoop_set
  intro j hj
  exact if_pos ⟨(h.channels hcount).symm ▸ hlt, by omega⟩

end FlacFile

end ModMp
