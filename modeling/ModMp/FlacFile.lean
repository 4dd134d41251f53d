import ModMp.Buffers

/-!
# The FLAC decoder's buffer

`flac_write` keeps one decoded frame in `flac->buf`, and `process_flac_file` hands it out in the
sizes that are asked for. The decoder delivers in each call a frame, nothing, or the end of the
stream with or without a last frame. The conversion of an integer sample to a float is a parameter.
A frame that is written over unread samples and a read outside of the buffer are faults.
-/

namespace ModMp

open Buffers

structure FlacFrame where
  blocksize : ℕ
  channels : ℕ
  bitsPerSample : ℕ
  buffer : Rows ℤ

/-- What the decoder has still to deliver. -/
structure FlacDecoder where
  pending : List (Option FlacFrame)
  last : Option FlacFrame

inductive FlacFault
  | unread
  | table
  | buffer
  deriving DecidableEq

structure FlacFile (φ : Type) where
  channels : ℕ
  bufferSampleLen : ℕ
  bufferSampleSeek : ℕ
  bufferSampleCount : ℕ
  eos : Bool
  buf : Rows φ
  decoder : FlacDecoder

def wavPermuteMatrix : List (List ℕ) :=
  [[0], [0, 1], [0, 2, 1], [0, 1, 2, 3], [0, 2, 1, 3, 4], [0, 2, 1, 4, 5, 3],
    [0, 2, 1, 4, 5, 6, 3], [0, 2, 1, 6, 7, 4, 5, 3]]

/-- The rows of the table have eight entries, and those that are not given are zero. -/
def permuteEntry (i j : ℕ) : Except FlacFault ℕ :=
  if i < 8 ∧ j < 8 then .ok ((wavPermuteMatrix.getD i []).getD j 0) else .error .table

variable {φ : Type} (toFloat : ℤ → ℕ → φ)

namespace FlacFile

def resizeBuffer (flac : FlacFile φ) (newchannels newsamples : ℕ) : FlacFile φ :=
  if newchannels = flac.channels ∧ newsamples = flac.bufferSampleLen then
    { flac with bufferSampleSeek := 0, bufferSampleCount := 0 }
  else
    { flac with
      channels := newchannels
      bufferSampleLen := newsamples
      bufferSampleSeek := 0
      bufferSampleCount := 0 }

def write (flac : FlacFile φ) (frame : FlacFrame) : Except FlacFault (FlacFile φ) :=
  if 0 < flac.bufferSampleCount then .error .unread
  else
    let flac := flac.resizeBuffer frame.channels frame.blocksize
    let buf := forLoop (fun i => forLoop (fun j buf =>
      .ok (Rows.set buf i j (toFloat (frame.buffer i j) frame.bitsPerSample)))
      frame.blocksize) frame.channels flac.buf
    buf.map (fun buf => { flac with buf := buf, bufferSampleCount := frame.blocksize })

/-- `FLAC__stream_decoder_process_single`, and whether the stream has ended after it. -/
def processSingle (flac : FlacFile φ) : Except FlacFault (FlacFile φ × Bool) :=
  match flac.decoder.pending, flac.decoder.last with
  | some frame :: rest, last =>
      ({ flac with decoder := ⟨rest, last⟩ }.write toFloat frame).map (fun flac => (flac, false))
  | none :: rest, last => .ok ({ flac with decoder := ⟨rest, last⟩ }, false)
  | [], some frame =>
      ({ flac with decoder := ⟨[], none⟩ }.write toFloat frame).map (fun flac => (flac, true))
  | [], none => .ok (flac, true)

def sample (flac : FlacFile φ) (channel j : ℕ) : Except FlacFault φ :=
  if channel < flac.channels ∧ j < flac.bufferSampleLen then .ok (flac.buf channel j)
  else .error .buffer

/-- The two loops of `process_flac_file` that copy `copy` samples of each channel. -/
def copyOut (flac : FlacFile φ) (buffer : Rows φ) (realsamples copy : ℕ) :
    Except FlacFault (Rows φ) :=
  forLoop (fun i buffer =>
    (permuteEntry (flac.channels - 1) i).bind (fun permute =>
      forLoop (fun j buffer =>
        (flac.sample permute (j + flac.bufferSampleSeek)).map
          (Rows.set buffer i (j + realsamples))) copy buffer)) flac.channels buffer

theorem map_eq_ok {α β : Type} {f : α → β} {e : Except FlacFault α} {b : β}
    (h : e.map f = .ok b) : ∃ a, e = .ok a ∧ f a = b := by
  cases e with
  | error fault => nomatch h
  | ok a => exact ⟨a, rfl, Except.ok.inj h⟩

theorem resizeBuffer_keeps (flac : FlacFile φ) (newchannels newsamples : ℕ) :
    flac.resizeBuffer newchannels newsamples =
      { flac with
        channels := newchannels
        bufferSampleLen := newsamples
        bufferSampleSeek := 0
        bufferSampleCount := 0 } := by
  rw [resizeBuffer]
  split_ifs with hsame
  · rw [hsame.1, hsame.2]
  · rfl

theorem write_keeps {flac flac₂ : FlacFile φ} {frame : FlacFrame}
    (h : flac.write toFloat frame = .ok flac₂) :
    flac₂.eos = flac.eos ∧ flac₂.decoder = flac.decoder := by
  rw [write] at h
  split_ifs at h
  obtain ⟨buf, -, rfl⟩ := map_eq_ok h
  rw [resizeBuffer_keeps]
  exact ⟨rfl, rfl⟩

theorem write_eq_ok {flac : FlacFile φ} (frame : FlacFrame) (h : flac.bufferSampleCount = 0) :
    flac.write toFloat frame = .ok
      { flac with
        channels := frame.channels
        bufferSampleLen := frame.blocksize
        bufferSampleSeek := 0
        bufferSampleCount := frame.blocksize
        buf := flac.buf.write frame.channels 0 frame.blocksize
          (fun i j => toFloat (frame.buffer i j) frame.bitsPerSample) } := by
  rw [write, if_neg (by omega), resizeBuffer_keeps]
  dsimp only
  have hrows := Rows.forLoop_writeRow (ε := FlacFault)
    (fun i => forLoop (fun j buf =>
      .ok (Rows.set buf i j (toFloat (frame.buffer i j) frame.bitsPerSample))) frame.blocksize)
    (fun i j => toFloat (frame.buffer i j) frame.bitsPerSample) flac.buf
    (fun i (_ : i < frame.channels) b => Rows.forLoop_set
      (fun j => .ok (toFloat (frame.buffer i j) frame.bitsPerSample)) _ b i 0 (fun _ _ => rfl))
  exact congrArg (Except.map _) hrows

/-- A call that delivers something leaves less to deliver, and only the last call ends. -/
theorem processSingle_cases {flac flac₂ : FlacFile φ} {ended : Bool}
    (h : flac.processSingle toFloat = .ok (flac₂, ended)) :
    flac₂.eos = flac.eos ∧
      (ended = false →
        flac₂.decoder.pending.length + 1 = flac.decoder.pending.length) := by
  rw [processSingle] at h
  split at h
  · next frame rest last hpending =>
    obtain ⟨flac₁, hwrite, heq⟩ := map_eq_ok h
    obtain ⟨heos, hdecoder⟩ := write_keeps toFloat hwrite
    cases heq
    exact ⟨heos, fun _ => by rw [hdecoder, hpending, List.length_cons]⟩
  · next rest last hpending =>
    cases h
    exact ⟨rfl, fun _ => by rw [hpending, List.length_cons]⟩
  · obtain ⟨flac₁, hwrite, heq⟩ := map_eq_ok h
    obtain ⟨heos, -⟩ := write_keeps toFloat hwrite
    cases heq
    exact ⟨heos, fun hended => nomatch hended⟩
  · cases h
    exact ⟨rfl, fun hended => nomatch hended⟩

def processFlacFileLoop (flac : FlacFile φ) (buffer : Rows φ) (realsamples samples : ℕ) :
    Except FlacFault (FlacFile φ × Rows φ × ℕ) :=
  if realsamples < samples then
    if 0 < flac.bufferSampleCount then
      let copy := if flac.bufferSampleCount < samples - realsamples then flac.bufferSampleCount
        else samples - realsamples
      match flac.copyOut buffer realsamples copy with
      | .error fault => .error fault
      | .ok buffer =>
          processFlacFileLoop
            { flac with
              bufferSampleSeek := flac.bufferSampleSeek + copy
              bufferSampleCount := flac.bufferSampleCount - copy }
            buffer (realsamples + copy) samples
    else if flac.eos = false then
      match _hsingle : flac.processSingle toFloat with
      | .error fault => .error fault
      | .ok (flac, ended) =>
          processFlacFileLoop (if ended then { flac with eos := true } else flac) buffer realsamples
            samples
    else .ok (flac, buffer, realsamples)
  else .ok (flac, buffer, realsamples)
termination_by samples - realsamples + if flac.eos then 0 else flac.decoder.pending.length + 1
decreasing_by
  · split_ifs <;> omega
  · next _ _ heos =>
    obtain ⟨hkeeps, hpending⟩ := processSingle_cases toFloat _hsingle
    cases ended with
    | true => simp [heos]
    | false => simp [hkeeps, heos, ← hpending rfl]

theorem processFlacFileLoop_of_copyOut {flac : FlacFile φ} {buffer buffer₂ : Rows φ}
    {realsamples samples copy : ℕ} (hlt : realsamples < samples)
    (hcount : 0 < flac.bufferSampleCount)
    (hcopy : copy = if flac.bufferSampleCount < samples - realsamples then flac.bufferSampleCount
      else samples - realsamples)
    (hok : flac.copyOut buffer realsamples copy = .ok buffer₂) :
    flac.processFlacFileLoop toFloat buffer realsamples samples =
      processFlacFileLoop toFloat
        { flac with
          bufferSampleSeek := flac.bufferSampleSeek + copy
          bufferSampleCount := flac.bufferSampleCount - copy }
        buffer₂ (realsamples + copy) samples := by
  rw [processFlacFileLoop, if_pos hlt, if_pos hcount, ← hcopy]
  dsimp only
  rw [hok]

theorem processFlacFileLoop_of_processSingle {flac flac₂ : FlacFile φ} {buffer : Rows φ}
    {realsamples samples : ℕ} {ended : Bool} (hlt : realsamples < samples)
    (hcount : ¬0 < flac.bufferSampleCount) (heos : flac.eos = false)
    (hok : flac.processSingle toFloat = .ok (flac₂, ended)) :
    flac.processFlacFileLoop toFloat buffer realsamples samples =
      processFlacFileLoop toFloat (if ended then { flac₂ with eos := true } else flac₂) buffer
        realsamples samples := by
  rw [processFlacFileLoop, if_pos hlt, if_neg hcount, if_pos heos]
  split
  · next fault hfault => cases hfault.symm.trans hok
  · next flac₃ ended₃ hok₃ =>
    cases hok₃.symm.trans hok
    rfl

/-- The first call of the decoder is made here, and its result is not looked at. -/
def readFlacFile (decoder : FlacDecoder) (buf : Rows φ) : Except FlacFault (FlacFile φ) :=
  let flac : FlacFile φ :=
    { channels := 0
      bufferSampleLen := 0
      bufferSampleSeek := 0
      bufferSampleCount := 0
      eos := false
      buf := buf
      decoder := decoder }
  (flac.processSingle toFloat).map Prod.fst

def processFlacFile (flac : FlacFile φ) (buffer : Rows φ) (samples : ℕ) :
    Except FlacFault (FlacFile φ × Rows φ × ℕ) :=
  flac.processFlacFileLoop toFloat buffer 0 samples

end FlacFile

end ModMp
