import ModMp.FlacDelivery

/-!
# What the calls of the FLAC decoder hand out

A call hands out the first of what is left, whatever the sizes of frames and requests are, so that
a sequence of calls reads each channel as a reader does that asks for the same sizes.
-/

namespace ModMp

open Buffers

variable {φ : Type} (toFloat : ℤ → ℕ → φ)

namespace FlacFile

/-- What a call does that starts with `realsamples` samples in the buffer of its caller. -/
structure HandsOut (c : ℕ) (flac : FlacFile φ) (buffer : Rows φ) (realsamples samples : ℕ)
    (result : FlacFile φ × Rows φ × ℕ) : Prop where
  ready : Ready c result.1
  returned : result.2.2 = realsamples + min (samples - realsamples) flac.numLeft
  output : ∀ i < c, result.2.1.part i 0 result.2.2 = buffer.part i 0 realsamples ++
    (flac.left toFloat (wavPermute c i)).take (samples - realsamples)
  leftAfter : ∀ k < c, result.1.left toFloat k =
    (flac.left toFloat k).drop (samples - realsamples)
  numLeftAfter : result.1.numLeft = flac.numLeft - (samples - realsamples)

variable {c : ℕ} {flac : FlacFile φ} {buffer : Rows φ} {realsamples samples : ℕ}
  {result : FlacFile φ × Rows φ × ℕ}

theorem handsOut_nothing (h : Ready c flac)
    (hnothing : samples ≤ realsamples ∨ flac.numLeft = 0) :
    HandsOut toFloat c flac buffer realsamples samples (flac, buffer, realsamples) := by
  have htake (k : ℕ) : (flac.left toFloat k).take (samples - realsamples) = [] := by
    rw [List.take_eq_nil_iff, ← List.length_eq_zero_iff, length_left]
    omega
  have hdrop (k : ℕ) :
      flac.left toFloat k = (flac.left toFloat k).drop (samples - realsamples) := by
    have happend := List.take_append_drop (samples - realsamples) (flac.left toFloat k)
    rw [htake, List.nil_append] at happend
    exact happend.symm
  refine ⟨h, ?_, ?_, fun k _ => hdrop k, ?_⟩
  · dsimp only
    omega
  · intro i _
    rw [htake, List.append_nil]
  · dsimp only
    omega

theorem HandsOut.of_left_eq {flac₂ : FlacFile φ}
    (h : HandsOut toFloat c flac₂ buffer realsamples samples result) (hc : 0 < c ∧ c ≤ 8)
    (hnum : flac₂.numLeft = flac.numLeft)
    (hleft : ∀ k < c, flac₂.left toFloat k = flac.left toFloat k) :
    HandsOut toFloat c flac buffer realsamples samples result := by
  refine ⟨h.ready, hnum ▸ h.returned, ?_, ?_, hnum ▸ h.numLeftAfter⟩
  · intro i hi
    rw [h.output i hi, hleft _ (permuteEntry_eq_ok hc hi).2]
  · intro k hk
    rw [h.leftAfter k hk, hleft k hk]

theorem HandsOut.of_copy {copy : ℕ} (hcount : copy ≤ flac.bufferSampleCount)
    (hrequest : copy ≤ samples - realsamples)
    (h : HandsOut toFloat c
      { flac with
        bufferSampleSeek := flac.bufferSampleSeek + copy
        bufferSampleCount := flac.bufferSampleCount - copy }
      (buffer.write c realsamples copy
        (fun i j => flac.buf (wavPermute c i) (j + flac.bufferSampleSeek)))
      (realsamples + copy) samples result) :
    HandsOut toFloat c flac buffer realsamples samples result := by
  have hsum : samples - realsamples = copy + (samples - (realsamples + copy)) := by omega
  have hlength (k : ℕ) : copy ≤ (flac.unread k).length := by
    rw [unread, Rows.length_part]
    exact hcount
  have hdrop (k : ℕ) : (flac.left toFloat k).drop copy =
      (flac.buf.part k (flac.bufferSampleSeek + copy) (flac.bufferSampleCount - copy)) ++
        flac.decoder.channel toFloat k := by
    rw [left, List.drop_append_of_le_length (hlength k), unread, Rows.drop_part _ _ _ hcount]
  have htake (k : ℕ) : (flac.left toFloat k).take copy =
      flac.buf.part k flac.bufferSampleSeek copy := by
    rw [left, List.take_append_of_le_length (hlength k), unread, Rows.take_part _ _ _ hcount]
  refine ⟨h.ready, ?_, ?_, ?_, ?_⟩
  · rw [h.returned, numLeft, numLeft]
    dsimp only
    omega
  · intro i hi
    rw [h.output i hi, Rows.part_add, Rows.part_write_before, Nat.zero_add,
      Rows.part_write _ _ _ _ hi, hsum, List.take_add, hdrop, htake, List.append_assoc]
    rfl
  · intro k hk
    rw [h.leftAfter k hk, hsum, ← List.drop_drop, hdrop]
    rfl
  · rw [h.numLeftAfter, numLeft, numLeft]
    dsimp only
    omega

theorem processFlacFileLoop_handsOut (hc : 0 < c ∧ c ≤ 8) (h : Ready c flac) (buffer : Rows φ)
    (realsamples samples : ℕ) :
    ∃ result, flac.processFlacFileLoop toFloat buffer realsamples samples = .ok result ∧
      HandsOut toFloat c flac buffer realsamples samples result := by
  induction flac, buffer, realsamples using processFlacFileLoop.induct toFloat samples with
  | case1 flac buffer realsamples hleft hcount copy fault hcopy =>
      have hle : copy ≤ flac.bufferSampleCount := by
        unfold copy
        split_ifs <;> omega
      rw [copyOut_eq_ok hc h hcount hle] at hcopy
      cases hcopy
  | case2 flac buffer realsamples hleft hcount copy buffer₂ hcopy ih =>
      have hle : copy ≤ flac.bufferSampleCount ∧ copy ≤ samples - realsamples := by
        unfold copy
        split_ifs <;> omega
      have hcopied := hcopy
      rw [copyOut_eq_ok hc h hcount hle.1, Except.ok.injEq] at hcopied
      subst hcopied
      obtain ⟨result, hloop, hresult⟩ := ih ⟨by have := h.room; dsimp only; omega,
        fun _ => h.channels hcount, h.frames, h.ended⟩
      exact ⟨result, (processFlacFileLoop_of_copyOut toFloat hleft hcount rfl hcopy).trans hloop,
        hresult.of_copy toFloat hle.1 hle.2⟩
  | case3 flac buffer realsamples hleft hcount heos fault hsingle =>
      obtain ⟨flac₂, ended, hok, -⟩ := processSingle_ready toFloat h (by omega) heos
      cases hsingle.symm.trans hok
  | case4 flac buffer realsamples hleft hcount heos flac₂ ended hsingle ih =>
      obtain ⟨flac₃, ended₃, hok, hready, hended, hnum, hsame⟩ :=
        processSingle_ready toFloat h (by omega) heos
      cases hsingle.symm.trans hok
      obtain ⟨result, hloop, hresult⟩ := ih (by
        cases ended with
        | true => exact ⟨hready.room, hready.channels, hready.frames, fun _ => hended rfl⟩
        | false => exact hready)
      refine ⟨result,
        (processFlacFileLoop_of_processSingle toFloat hleft hcount heos hok).trans hloop, ?_⟩
      cases ended with
      | true => exact hresult.of_left_eq toFloat hc hnum hsame
      | false => exact hresult.of_left_eq toFloat hc hnum hsame
  | case5 flac buffer realsamples hleft hcount heos =>
      have hnone : flac.numLeft = 0 := by
        rw [numLeft, FlacDecoder.total, h.ended (Bool.eq_true_of_not_eq_false heos)]
        exact Nat.eq_zero_of_not_pos hcount
      refine ⟨(flac, buffer, realsamples), ?_, handsOut_nothing toFloat h (.inr hnone)⟩
      rw [processFlacFileLoop, if_pos hleft, if_neg hcount, if_neg heos]
  | case6 flac buffer realsamples hleft =>
      refine ⟨(flac, buffer, realsamples), ?_, handsOut_nothing toFloat h (.inl (by omega))⟩
      rw [processFlacFileLoop, if_neg hleft]

theorem readFlacFile_ready (decoder : FlacDecoder) (buf : Rows φ)
    (hframes : ∀ frame ∈ decoder.frames, frame.channels = c) :
    ∃ flac, readFlacFile toFloat decoder buf = .ok flac ∧ Ready c flac ∧
      flac.numLeft = decoder.total ∧
      ∀ k < c, flac.left toFloat k = decoder.channel toFloat k := by
  have hstart : Ready c (⟨0, 0, 0, 0, false, buf, decoder⟩ : FlacFile φ) :=
    ⟨le_rfl, nofun, hframes, nofun⟩
  obtain ⟨flac, ended, hok, hready, -, hnum, hleft⟩ :=
    processSingle_ready toFloat hstart rfl rfl
  refine ⟨flac, ?_, hready, hnum.trans (Nat.zero_add _), hleft⟩
  rw [readFlacFile, hok]
  rfl

/-- The calls of `process_flac_file`, each with a buffer of its own and a request. -/
def processCalls (flac : FlacFile φ) :
    List (Rows φ × ℕ) → Except FlacFault (FlacFile φ × List (Rows φ × ℕ))
  | [] => .ok (flac, [])
  | (buffer, samples) :: calls =>
      (flac.processFlacFile toFloat buffer samples).bind (fun result =>
        (result.1.processCalls calls).map (fun final => (final.1, result.2 :: final.2)))

theorem processCalls_reads (hc : 0 < c ∧ c ≤ 8) (h : Ready c flac) (calls : List (Rows φ × ℕ)) :
    ∃ final outs, flac.processCalls toFloat calls = .ok (final, outs) ∧
      (∀ i < c, outs.map (fun out => out.1.part i 0 out.2) =
        reads (flac.left toFloat (wavPermute c i)) (calls.map Prod.snd)) := by
  induction calls generalizing flac with
  | nil => exact ⟨flac, [], rfl, fun _ _ => rfl⟩
  | cons call calls ih =>
      obtain ⟨buffer, samples⟩ := call
      obtain ⟨result, hloop, hresult⟩ := processFlacFileLoop_handsOut toFloat hc h buffer 0 samples
      obtain ⟨final, outs, hcalls, houts⟩ := ih hresult.ready
      refine ⟨final, result.2 :: outs, ?_, ?_⟩
      · rw [processCalls, processFlacFile, hloop]
        change (result.1.processCalls toFloat calls).map _ = _
        rw [hcalls]
        rfl
      · intro i hi
        rw [List.map_cons, hresult.output i hi, houts i hi,
          hresult.leftAfter _ (permuteEntry_eq_ok hc hi).2]
        rfl

end FlacFile

open FlacFile in
/-- Whatever is asked for, no call faults, each returns what is left up to its request, in order,
and nothing is lost. -/
theorem flac_hands_out_once {c : ℕ} (hc : 0 < c ∧ c ≤ 8) (decoder : FlacDecoder)
    (hframes : ∀ frame ∈ decoder.frames, frame.channels = c) (buf : Rows φ)
    (calls : List (Rows φ × ℕ)) :
    ∃ final outs, (readFlacFile toFloat decoder buf).bind
        (fun flac => flac.processCalls toFloat calls) = .ok (final, outs) ∧
      outs.length = calls.length ∧
      (∀ n buffer samples, calls[n]? = some (buffer, samples) →
        ∃ out, outs[n]? = some out ∧
          out.2 = min samples (decoder.total - ((calls.take n).map Prod.snd).sum) ∧
          ∀ i < c, out.1.part i 0 out.2 =
            ((decoder.channel toFloat (wavPermute c i)).drop
              ((calls.take n).map Prod.snd).sum).take samples) ∧
      ∀ i < c, outs.flatMap (fun out => out.1.part i 0 out.2) =
        (decoder.channel toFloat (wavPermute c i)).take (calls.map Prod.snd).sum := by
  obtain ⟨flac, hread, hready, -, hleft⟩ := readFlacFile_ready toFloat decoder buf hframes
  obtain ⟨final, outs, hcalls, houts⟩ := processCalls_reads toFloat hc hready calls
  have hreads : ∀ i < c, outs.map (fun out => out.1.part i 0 out.2) =
      reads (decoder.channel toFloat (wavPermute c i)) (calls.map Prod.snd) := by
    intro i hi
    rw [houts i hi, hleft _ (permuteEntry_eq_ok hc hi).2]
  refine ⟨final, outs, ?_, ?_, ?_, ?_⟩
  · rw [hread]
    exact hcalls
  · have hlength := congrArg List.length (hreads 0 hc.1)
    rwa [List.length_map, length_reads, List.length_map] at hlength
  · intro n buffer samples hn
    have hpart : ∀ i < c, outs[n]?.map (fun out => out.1.part i 0 out.2) =
        some (((decoder.channel toFloat (wavPermute c i)).drop
          ((calls.take n).map Prod.snd).sum).take samples) := by
      intro i hi
      rw [← List.getElem?_map, hreads i hi, getElem?_reads, List.getElem?_map, hn, List.map_take]
      rfl
    obtain ⟨out, hout, -⟩ := Option.map_eq_some_iff.mp (hpart 0 hc.1)
    have heq : ∀ i < c, out.1.part i 0 out.2 =
        ((decoder.channel toFloat (wavPermute c i)).drop
          ((calls.take n).map Prod.snd).sum).take samples := by
      intro i hi
      have hi := hpart i hi
      rw [hout] at hi
      exact Option.some.inj hi
    refine ⟨out, hout, ?_, heq⟩
    have hlength := congrArg List.length (heq 0 hc.1)
    rwa [Rows.length_part, List.length_take, List.length_drop, FlacDecoder.length_channel]
      at hlength
  · intro i hi
    rw [List.flatMap_def, hreads i hi, flatten_reads]

def stereoFrames : FlacDecoder where
  pending := [some ⟨3, 2, 16, fun i j => 10 * i + j⟩, none]
  last := some ⟨2, 2, 16, fun i j => 10 * i + j + 5⟩

theorem flac_hands_out_once_stereo :
    ∃ final outs, (FlacFile.readFlacFile (fun x _ => x) stereoFrames (fun _ _ => 0)).bind
        (fun flac => flac.processCalls (fun x _ => x)
          [(fun _ _ => 0, 2), (fun _ _ => 0, 2), (fun _ _ => 0, 4)]) = .ok (final, outs) ∧
      outs.flatMap (fun out => out.1.part 1 0 out.2) = [10, 11, 12, 15, 16] := by
  obtain ⟨final, outs, hcalls, -, -, hall⟩ := flac_hands_out_once (fun (x : ℤ) _ => x)
    (by decide : 0 < 2 ∧ 2 ≤ 8) stereoFrames (by
      intro frame hframe
      fin_cases hframe <;> rfl) (fun _ _ => 0)
    [(fun _ _ => 0, 2), (fun _ _ => 0, 2), (fun _ _ => 0, 4)]
  exact ⟨final, outs, hcalls, (hall 1 (by decide)).trans (by decide)⟩

end ModMp
