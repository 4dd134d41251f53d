import ModMp.FlacMemory
import ModMp.FlacStream

/-!
# Decoding into memory

The functions of the FLAC reader over memory do what they do over a buffer without memory: whatever
the buffer hands out, the memory hands out, and there is no fault of the memory. The loop over
memory is bounded by a number of rounds, and a large enough one gives the result.
-/

namespace ModMp

open Buffers Allocations

/-- `flac_file_t` with its memory and the decoder. -/
structure FlacMemoryFile (φ : Type) where
  memory : FlacMemory φ
  eos : Bool
  decoder : FlacDecoder

inductive FlacRunFault
  | memory (fault : MemFault)
  | table
  | rounds

variable {φ : Type} (toFloat : ℤ → ℕ → φ)

namespace FlacMemory

def copyOut (flac : FlacMemory φ) (buffer : Rows φ) (realsamples copy : ℕ) :
    Except FlacRunFault (Rows φ) :=
  forLoop (fun i buffer =>
    ((permuteEntry (flac.channels - 1) i).mapError (fun _ => .table)).bind (fun permute =>
      forLoop (fun j buffer =>
        ((flac.sample permute (j + flac.bufferSampleSeek)).mapError .memory).map
          (Rows.set buffer i (j + realsamples))) copy buffer)) flac.channels buffer

end FlacMemory

namespace FlacMemoryFile

def processSingle (file : FlacMemoryFile φ) : Except FlacRunFault (FlacMemoryFile φ × Bool) :=
  match file.decoder.pending, file.decoder.last with
  | some frame :: rest, last =>
      ((file.memory.write toFloat frame).mapError .memory).map
        (fun memory => (⟨memory, file.eos, ⟨rest, last⟩⟩, false))
  | none :: rest, last => .ok (⟨file.memory, file.eos, ⟨rest, last⟩⟩, false)
  | [], some frame =>
      ((file.memory.write toFloat frame).mapError .memory).map
        (fun memory => (⟨memory, file.eos, ⟨[], none⟩⟩, true))
  | [], none => .ok (file, true)

/-- The loop of `process_flac_file`, for at most `rounds` rounds. -/
def processFlacFileLoop :
    ℕ → FlacMemoryFile φ → Rows φ → ℕ → ℕ → Except FlacRunFault (FlacMemoryFile φ × Rows φ × ℕ)
  | 0, _, _, _, _ => .error .rounds
  | rounds + 1, file, buffer, realsamples, samples =>
      if realsamples < samples then
        if 0 < file.memory.bufferSampleCount then
          let copy := if file.memory.bufferSampleCount < samples - realsamples then
            file.memory.bufferSampleCount else samples - realsamples
          (file.memory.copyOut buffer realsamples copy).bind (fun buffer =>
            processFlacFileLoop rounds
              { file with
                memory :=
                  { file.memory with
                    bufferSampleSeek := file.memory.bufferSampleSeek + copy
                    bufferSampleCount := file.memory.bufferSampleCount - copy } }
              buffer (realsamples + copy) samples)
        else if file.eos = false then
          (file.processSingle toFloat).bind (fun (file, ended) =>
            processFlacFileLoop rounds (if ended then { file with eos := true } else file) buffer
              realsamples samples)
        else .ok (file, buffer, realsamples)
      else .ok (file, buffer, realsamples)

def readFlacFile (decoder : FlacDecoder) : Except FlacRunFault (FlacMemoryFile φ) :=
  (processSingle toFloat ⟨.cleared, false, decoder⟩).map Prod.fst

/-- Calls of `process_flac_file`, each with a buffer of its own and a request. -/
def processCalls (rounds : ℕ) (file : FlacMemoryFile φ) :
    List (Rows φ × ℕ) → Except FlacRunFault (FlacMemoryFile φ × List (Rows φ × ℕ))
  | [] => .ok (file, [])
  | (buffer, samples) :: calls =>
      (file.processFlacFileLoop toFloat rounds buffer 0 samples).bind (fun result =>
        (processCalls rounds result.1 calls).map (fun final => (final.1, result.2 :: final.2)))

end FlacMemoryFile

/-- The memory holds what the buffer holds, and everything in it is live. -/
structure Mirrors (flac : FlacFile φ) (file : FlacMemoryFile φ) : Prop where
  eos : file.eos = flac.eos
  decoder : file.decoder = flac.decoder
  channels : file.memory.channels = flac.channels
  seek : file.memory.bufferSampleSeek = flac.bufferSampleSeek
  count : file.memory.bufferSampleCount = flac.bufferSampleCount
  sample : ∀ i j x, flac.sample i j = .ok x → file.memory.sample i j = .ok x
  owns : ∃ rows lost, FlacMemory.Owns file.memory rows lost

namespace Mirrors

variable {toFloat} {flac flac₂ : FlacFile φ} {file : FlacMemoryFile φ}

theorem cleared (decoder : FlacDecoder) (buf : Rows φ) :
    Mirrors ⟨0, 0, 0, 0, false, buf, decoder⟩ ⟨.cleared, false, decoder⟩ where
  eos := rfl
  decoder := rfl
  channels := rfl
  seek := rfl
  count := rfl
  sample i j x h := by
    rw [FlacFile.sample, if_neg (fun hlt => absurd hlt.1 (Nat.not_lt_zero i))] at h
    cases h
  owns := ⟨[], ∅, .cleared⟩

theorem write (h : Mirrors flac file) {frame : FlacFrame} {decoder : FlacDecoder}
    (hwrite : { flac with decoder := decoder }.write toFloat frame = .ok flac₂) :
    ∃ memory, file.memory.write toFloat frame = .ok memory ∧
      Mirrors flac₂ ⟨memory, file.eos, decoder⟩ := by
  have hcount : { flac with decoder := decoder }.bufferSampleCount = 0 := by
    rw [FlacFile.write] at hwrite
    split_ifs at hwrite with hcount
    exact Nat.eq_zero_of_not_pos hcount
  rw [FlacFile.write_eq_ok toFloat frame hcount] at hwrite
  cases hwrite
  obtain ⟨rows, lost, howns⟩ := h.owns
  obtain ⟨memory, rows₂, lost₂, hmemory, howns₂, hchannels, hlen, hseek, hcount₂, -, hsample⟩ :=
    howns.write toFloat frame
  refine ⟨memory, hmemory, h.eos, rfl, hchannels, hseek, hcount₂, ?_, rows₂, lost₂, howns₂⟩
  intro i j x hx
  rw [FlacFile.sample] at hx
  split_ifs at hx with hlt
  cases hx
  rw [hsample i hlt.1 j hlt.2]
  refine congrArg Except.ok (if_pos ⟨hlt.1, Nat.zero_le j, ?_⟩).symm
  rw [Nat.zero_add]
  exact hlt.2

theorem copyOut (h : Mirrors flac file) {buffer buffer₂ : Rows φ} {realsamples copy : ℕ}
    (hcopy : flac.copyOut buffer realsamples copy = .ok buffer₂) :
    file.memory.copyOut buffer realsamples copy = .ok buffer₂ := by
  rw [FlacFile.copyOut] at hcopy
  rw [FlacMemory.copyOut, h.channels, h.seek]
  refine forLoop_of_forLoop ?_ hcopy
  intro i s t hrow
  cases hpermute : permuteEntry (flac.channels - 1) i with
  | error fault =>
      rw [hpermute] at hrow
      cases hrow
  | ok permute =>
      rw [hpermute] at hrow
      refine forLoop_of_forLoop ?_ hrow
      intro j s t hset
      obtain ⟨x, hx, rfl⟩ := FlacFile.map_eq_ok hset
      rw [h.sample _ _ x hx]
      rfl

theorem advance (h : Mirrors flac file) (copy : ℕ) :
    Mirrors
      { flac with
        bufferSampleSeek := flac.bufferSampleSeek + copy
        bufferSampleCount := flac.bufferSampleCount - copy }
      { file with
        memory :=
          { file.memory with
            bufferSampleSeek := file.memory.bufferSampleSeek + copy
            bufferSampleCount := file.memory.bufferSampleCount - copy } } where
  eos := h.eos
  decoder := h.decoder
  channels := h.channels
  seek := congrArg (· + copy) h.seek
  count := congrArg (· - copy) h.count
  sample := h.sample
  owns := by
    obtain ⟨rows, lost, ho⟩ := h.owns
    exact ⟨rows, lost, ho.length, ho.nodup, ho.live, ho.apart, ho.array, ho.null, ho.size⟩

theorem processSingle (h : Mirrors flac file) {ended : Bool}
    (hsingle : flac.processSingle toFloat = .ok (flac₂, ended)) :
    ∃ file₂, file.processSingle toFloat = .ok (file₂, ended) ∧ Mirrors flac₂ file₂ := by
  rw [FlacFile.processSingle] at hsingle
  rw [FlacMemoryFile.processSingle, h.decoder]
  rcases hdecoder : flac.decoder with ⟨pending, last⟩
  rw [hdecoder] at hsingle
  cases pending with
  | cons delivered rest =>
      cases delivered with
      | some frame =>
          obtain ⟨flac₁, hwrite, heq⟩ := FlacFile.map_eq_ok hsingle
          cases heq
          obtain ⟨memory, hmemory, hmirrors⟩ := h.write hwrite
          dsimp only
          rw [hmemory]
          exact ⟨_, rfl, hmirrors⟩
      | none =>
          cases hsingle
          exact ⟨_, rfl, h.eos, rfl, h.channels, h.seek, h.count, h.sample, h.owns⟩
  | nil =>
      cases last with
      | some frame =>
          obtain ⟨flac₁, hwrite, heq⟩ := FlacFile.map_eq_ok hsingle
          cases heq
          obtain ⟨memory, hmemory, hmirrors⟩ := h.write hwrite
          dsimp only
          rw [hmemory]
          exact ⟨_, rfl, hmirrors⟩
      | none =>
          cases hsingle
          exact ⟨file, rfl, h⟩

theorem endedIf (h : Mirrors flac file) (ended : Bool) :
    Mirrors (if ended then { flac with eos := true } else flac)
      (if ended then { file with eos := true } else file) := by
  cases ended with
  | true => exact ⟨rfl, h.decoder, h.channels, h.seek, h.count, h.sample, h.owns⟩
  | false => exact h

/-- The loop over memory does what the loop over the buffer does, given enough rounds. -/
theorem processFlacFileLoop (flac : FlacFile φ) (buffer : Rows φ) (realsamples samples : ℕ)
    {result : FlacFile φ × Rows φ × ℕ} :
    flac.processFlacFileLoop toFloat buffer realsamples samples = .ok result →
      ∀ file, Mirrors flac file → ∃ enough file₂, Mirrors result.1 file₂ ∧
        ∀ rounds, enough ≤ rounds →
          file.processFlacFileLoop toFloat rounds buffer realsamples samples =
            .ok (file₂, result.2) := by
  induction flac, buffer, realsamples using FlacFile.processFlacFileLoop.induct toFloat samples with
  | case1 flac buffer realsamples hleft hcount copy fault hcopy =>
      intro hloop
      rw [FlacFile.processFlacFileLoop, if_pos hleft, if_pos hcount] at hloop
      have herror : flac.copyOut buffer realsamples
          (if flac.bufferSampleCount < samples - realsamples then flac.bufferSampleCount
            else samples - realsamples) = .error fault := hcopy
      dsimp only at hloop
      rw [herror] at hloop
      cases hloop
  | case2 flac buffer realsamples hleft hcount copy buffer₂ hcopy ih =>
      intro hloop file h
      rw [FlacFile.processFlacFileLoop_of_copyOut toFloat hleft hcount rfl hcopy] at hloop
      obtain ⟨enough, file₂, hmirrors, hrounds⟩ := ih hloop _ (h.advance copy)
      refine ⟨enough + 1, file₂, hmirrors, fun rounds henough => ?_⟩
      obtain ⟨rounds, rfl⟩ := Nat.exists_eq_succ_of_ne_zero (Nat.ne_zero_of_lt henough)
      rw [FlacMemoryFile.processFlacFileLoop, if_pos hleft, if_pos (h.count ▸ hcount)]
      dsimp only
      have hmin : (if file.memory.bufferSampleCount < samples - realsamples then
          file.memory.bufferSampleCount else samples - realsamples) = copy := by
        rw [h.count]
        rfl
      rw [hmin, h.copyOut hcopy]
      exact hrounds rounds (Nat.le_of_succ_le_succ henough)
  | case3 flac buffer realsamples hleft hcount heos fault hsingle =>
      intro hloop
      rw [FlacFile.processFlacFileLoop, if_pos hleft, if_neg hcount, if_pos heos] at hloop
      split at hloop
      · cases hloop
      · rename_i flac₂ ended hok
        cases hsingle.symm.trans hok
  | case4 flac buffer realsamples hleft hcount heos flac₂ ended hsingle ih =>
      intro hloop file h
      rw [FlacFile.processFlacFileLoop_of_processSingle toFloat hleft hcount heos hsingle] at hloop
      obtain ⟨file₁, hfile, hmirrors₁⟩ := h.processSingle hsingle
      obtain ⟨enough, file₂, hmirrors, hrounds⟩ := ih hloop _ (hmirrors₁.endedIf ended)
      refine ⟨enough + 1, file₂, hmirrors, fun rounds henough => ?_⟩
      obtain ⟨rounds, rfl⟩ := Nat.exists_eq_succ_of_ne_zero (Nat.ne_zero_of_lt henough)
      rw [FlacMemoryFile.processFlacFileLoop, if_pos hleft, if_neg (h.count ▸ hcount),
        if_pos (h.eos.trans heos), hfile]
      exact hrounds rounds (Nat.le_of_succ_le_succ henough)
  | case5 flac buffer realsamples hleft hcount heos =>
      intro hloop file h
      rw [FlacFile.processFlacFileLoop, if_pos hleft, if_neg hcount, if_neg heos] at hloop
      cases hloop
      refine ⟨1, file, h, fun rounds henough => ?_⟩
      obtain ⟨rounds, rfl⟩ := Nat.exists_eq_succ_of_ne_zero (Nat.ne_zero_of_lt henough)
      rw [FlacMemoryFile.processFlacFileLoop, if_pos hleft, if_neg (h.count ▸ hcount),
        if_neg (h.eos ▸ heos)]
  | case6 flac buffer realsamples hleft =>
      intro hloop file h
      rw [FlacFile.processFlacFileLoop, if_neg hleft] at hloop
      cases hloop
      refine ⟨1, file, h, fun rounds henough => ?_⟩
      obtain ⟨rounds, rfl⟩ := Nat.exists_eq_succ_of_ne_zero (Nat.ne_zero_of_lt henough)
      rw [FlacMemoryFile.processFlacFileLoop, if_neg hleft]

theorem processCalls (h : Mirrors flac file) {calls : List (Rows φ × ℕ)}
    {final : FlacFile φ × List (Rows φ × ℕ)}
    (hcalls : flac.processCalls toFloat calls = .ok final) :
    ∃ enough file₂, Mirrors final.1 file₂ ∧ ∀ rounds, enough ≤ rounds →
      file.processCalls toFloat rounds calls = .ok (file₂, final.2) := by
  induction calls generalizing flac file final with
  | nil =>
      cases hcalls
      exact ⟨0, file, h, fun _ _ => rfl⟩
  | cons call calls ih =>
      obtain ⟨buffer, samples⟩ := call
      cases hloop : flac.processFlacFile toFloat buffer samples with
      | error fault =>
          rw [FlacFile.processCalls, hloop] at hcalls
          cases hcalls
      | ok result =>
          rw [FlacFile.processCalls, hloop] at hcalls
          obtain ⟨rest, hrest, rfl⟩ := FlacFile.map_eq_ok hcalls
          obtain ⟨enough, file₁, hmirrors₁, hrounds⟩ :=
            processFlacFileLoop flac buffer 0 samples hloop file h
          obtain ⟨enough₁, file₂, hmirrors₂, hrounds₁⟩ := ih hmirrors₁ hrest
          refine ⟨max enough enough₁, file₂, hmirrors₂, fun rounds henough => ?_⟩
          rw [FlacMemoryFile.processCalls, hrounds rounds (le_of_max_le_left henough)]
          change Except.map _ (file₁.processCalls toFloat rounds calls) = _
          rw [hrounds₁ rounds (le_of_max_le_right henough)]
          rfl

theorem readFlacFile {decoder : FlacDecoder} {buf : Rows φ}
    (hread : FlacFile.readFlacFile toFloat decoder buf = .ok flac) :
    ∃ file, FlacMemoryFile.readFlacFile toFloat decoder = .ok file ∧ Mirrors flac file := by
  obtain ⟨result, hsingle, rfl⟩ := FlacFile.map_eq_ok hread
  obtain ⟨file, hfile, hmirrors⟩ := (cleared decoder buf).processSingle hsingle
  refine ⟨file, ?_, hmirrors⟩
  rw [FlacMemoryFile.readFlacFile, hfile]
  rfl

theorem closeFlac (h : Mirrors flac file) : ∃ heap, file.memory.closeFlac = .ok heap := by
  obtain ⟨rows, lost, howns⟩ := h.owns
  obtain ⟨heap, hfree, -⟩ := howns.freeRows_eq
  exact ⟨heap, hfree⟩

end Mirrors

open FlacFile in
/-- Whatever is asked for, the calls over memory do not fault, they read each channel as a reader
does that asks for the same sizes, and the file can be closed after them. -/
theorem flac_memory_calls {c : ℕ} (hc : 0 < c ∧ c ≤ 8) (decoder : FlacDecoder)
    (hframes : ∀ frame ∈ decoder.frames, frame.channels = c) (calls : List (Rows φ × ℕ)) :
    ∃ enough file outs heap, (∀ rounds, enough ≤ rounds →
        (FlacMemoryFile.readFlacFile toFloat decoder).bind
          (fun file => file.processCalls toFloat rounds calls) = .ok (file, outs)) ∧
      (∀ i < c, outs.map (fun out => out.1.part i 0 out.2) =
        reads (decoder.channel toFloat (wavPermute c i)) (calls.map Prod.snd)) ∧
      file.memory.closeFlac = .ok heap := by
  obtain ⟨flac, hread, hready, -, hleft⟩ :=
    FlacFile.readFlacFile_ready toFloat decoder (fun _ _ => toFloat 0 0) hframes
  obtain ⟨final, outs, hcalls, houts⟩ := FlacFile.processCalls_reads toFloat hc hready calls
  obtain ⟨file, hfile, hmirrors⟩ := Mirrors.readFlacFile hread
  obtain ⟨enough, file₂, hmirrors₂, hrounds⟩ := hmirrors.processCalls hcalls
  obtain ⟨heap, hclose⟩ := hmirrors₂.closeFlac
  refine ⟨enough, file₂, outs, heap, ?_, ?_, hclose⟩
  · intro rounds henough
    rw [hfile]
    exact hrounds rounds henough
  · intro i hi
    rw [houts i hi, hleft _ (permuteEntry_eq_ok hc hi).2]

theorem flac_memory_calls_stereo : ∃ enough file outs heap, (∀ rounds, enough ≤ rounds →
      (FlacMemoryFile.readFlacFile (fun x _ => x) stereoFrames).bind
        (fun file => file.processCalls (fun x _ => x) rounds
          [(fun _ _ => 0, 2), (fun _ _ => 0, 4)]) = .ok (file, outs)) ∧
      outs.map (fun out => out.1.part 1 0 out.2) = [[10, 11], [12, 15, 16]] ∧
      file.memory.closeFlac = .ok heap := by
  obtain ⟨enough, file, outs, heap, hcalls, houts, hclose⟩ :=
    flac_memory_calls (fun (x : ℤ) _ => x) (by decide : 0 < 2 ∧ 2 ≤ 8) stereoFrames (by
      intro frame hframe
      fin_cases hframe <;> rfl) [(fun _ _ => 0, 2), (fun _ _ => 0, 4)]
  exact ⟨enough, file, outs, heap, hcalls, (houts 1 (by decide)).trans (by decide), hclose⟩

end ModMp
