import ModMp.FlacStream

/-!
# The Ogg encoder

`ogg_encode` passes what the input file delivers to libvorbis and writes the pages that libogg puts
out, until the page that ends the stream. What libvorbis has got decides which blocks and pages come
out next, and a call of `apr_file_write_full` may write less than it is asked for. The output file
is opened without `APR_TRUNCATE`, so that an older file is overwritten from its start and the bytes
after the last page stay. The loops over blocks and pages end with what libogg puts out; the outer
loop is bounded by a number of rounds. The settings of the encoder are left out, and the arithmetic
of the progress, a `float`, is a parameter.
-/

namespace ModMp

open Buffers

/-- What a call of `apr_file_write_full` has written and what it returns. -/
structure FileWrite where
  written : ℕ
  status : ℤ

/-- An open file, split where the next call writes. -/
structure OpenFile where
  before : List UInt8
  after : List UInt8

namespace OpenFile

def bytes (file : OpenFile) : List UInt8 := file.before ++ file.after

/-- The bytes at the position are replaced and the others stay. -/
def write (file : OpenFile) (written : List UInt8) : OpenFile :=
  ⟨file.before ++ written, file.after.drop written.length⟩

variable (file : OpenFile) (written more : List UInt8)

theorem write_nil : file.write [] = file := by
  rw [write, List.append_nil, List.length_nil, List.drop_zero]

theorem write_write : (file.write written).write more = file.write (written ++ more) := by
  rw [write, write, write, List.append_assoc, List.drop_drop, List.length_append]

end OpenFile

structure OggPage where
  header : List UInt8
  body : List UInt8
  eos : Bool

def OggPage.bytes (page : OggPage) : List UInt8 := page.header ++ page.body

/-- The buffer that `vorbis_analysis_buffer` returns, and the blocks that come out, each with the
pages that it completes, after the calls of `vorbis_analysis_wrote` that were made. -/
structure VorbisEncoder (φ : Type) where
  analysisBuffer : List (Rows φ × ℕ) → Rows φ
  blocks : List (Rows φ × ℕ) → List (List OggPage)

structure EncodingOptions where
  totalSamplesPerChannel : ℕ
  samplesToRequest : ℕ

structure OggState (σ φ : Type) where
  input : σ
  given : List (Rows φ × ℕ)
  samplesTotal : ℕ
  packetsDone : ℕ
  progress : Option UInt32
  file : OpenFile
  writes : ℕ
  totalLength : ℕ
  eos : Bool

inductive OggStop (σ φ ε : Type)
  | returned (s : OggState σ φ) (status : ℤ)
  | fault (e : ε)
  | rounds

variable {σ φ ε : Type}

namespace OggState

/-- `apr_file_write_full` and the check of its result. -/
def writeFull (disk : ℕ → ℕ → FileWrite) (bytes : List UInt8) (s : OggState σ φ) :
    Except (OggStop σ φ ε) (OggState σ φ) :=
  let result := disk s.writes bytes.length
  let s := { s with file := s.file.write (bytes.take result.written), writes := s.writes + 1 }
  if result.written ≠ bytes.length ∨ result.status ≠ 0 then .error (.returned s result.status)
  else .ok s

def writePage (disk : ℕ → ℕ → FileWrite) (page : OggPage) (s : OggState σ φ) :
    Except (OggStop σ φ ε) (OggState σ φ) :=
  (s.writeFull disk page.header).bind (fun s =>
    (s.writeFull disk page.body).map (fun s =>
      { s with
        totalLength := s.totalLength + (page.header.length + page.body.length)
        eos := if page.eos then true else s.eos }))

/-- The inner loop over the pages that `ogg_stream_pageout` puts out. -/
def pageLoop (disk : ℕ → ℕ → FileWrite) :
    List OggPage → OggState σ φ → Except (OggStop σ φ ε) (OggState σ φ)
  | [], s => .ok s
  | page :: pages, s =>
      if s.eos then .ok s else (s.writePage disk page).bind (pageLoop disk pages)

/-- The loop over the blocks of `vorbis_analysis_blockout`, each of which becomes a packet. -/
def blockLoop (disk : ℕ → ℕ → FileWrite) :
    List (List OggPage) → OggState σ φ → Except (OggStop σ φ ε) (OggState σ φ)
  | [], s => .ok s
  | pages :: blocks, s =>
      (pageLoop disk pages { s with packetsDone := s.packetsDone + 1 }).bind (blockLoop disk blocks)

/-- The samples of a call of `process_input_file` go to libvorbis. `percent` gives the bits of the
`float` that is 100 times the first number divided by the second. -/
def analysisWrote (percent : ℕ → ℕ → UInt32) (options : EncodingOptions) (s : OggState σ φ)
    (input : σ) (buffer : Rows φ) (samplesRead : ℕ) : OggState σ φ :=
  if samplesRead = 0 then { s with input := input, given := s.given ++ [(buffer, 0)] }
  else
    let samplesTotal := s.samplesTotal + samplesRead
    { s with
      input := input
      samplesTotal := samplesTotal
      progress := if 40 ≤ s.packetsDone then
          s.progress.map (fun _ => percent samplesTotal options.totalSamplesPerChannel)
        else s.progress
      packetsDone := if 40 ≤ s.packetsDone then 0 else s.packetsDone
      given := s.given ++ [(buffer, samplesRead)] }

variable (process : σ → Rows φ → ℕ → Except ε (σ × Rows φ × ℕ)) (encoder : VorbisEncoder φ)
  (disk : ℕ → ℕ → FileWrite) (percent : ℕ → ℕ → UInt32) (options : EncodingOptions)

/-- The outer loop, for at most `rounds` rounds. -/
def encodeLoop : ℕ → OggState σ φ → Except (OggStop σ φ ε) (OggState σ φ)
  | 0, _ => .error .rounds
  | rounds + 1, s =>
      if s.eos then .ok s
      else
        match process s.input (encoder.analysisBuffer s.given) options.samplesToRequest with
        | .error e => .error (.fault e)
        | .ok (input, buffer, samplesRead) =>
            let s := s.analysisWrote percent options input buffer samplesRead
            (blockLoop disk (encoder.blocks s.given) s).bind (encodeLoop rounds)

end OggState

/-- The state at a return and the returned status. -/
def OggStop.result : Except (OggStop σ φ ε) (OggState σ φ) → Option (OggState σ φ × ℤ)
  | .ok s => some (s, 0)
  | .error (.returned s status) => some (s, status)
  | .error _ => none

namespace OggState

def start (old : List UInt8) (input : σ) (progress : Option UInt32) : OggState σ φ :=
  ⟨input, [], 0, 0, progress, ⟨[], old⟩, 0, 0, false⟩

/-- `ogg_encode`, where `apr_file_open` returns `opened` and the file has the bytes `old`, none if
it is created. -/
def oggEncode (process : σ → Rows φ → ℕ → Except ε (σ × Rows φ × ℕ)) (encoder : VorbisEncoder φ)
    (disk : ℕ → ℕ → FileWrite) (percent : ℕ → ℕ → UInt32) (options : EncodingOptions) (rounds : ℕ)
    (opened : ℤ) (old : List UInt8) (input : σ) (progress : Option UInt32) :
    Option (OggState σ φ × ℤ) :=
  if opened ≠ 0 then some (start old input progress, opened)
  else OggStop.result
    ((start old input progress).encodeLoop process encoder disk percent options rounds)

end OggState

def throughEos : List OggPage → List OggPage
  | [] => []
  | page :: pages => if page.eos then [page] else page :: throughEos pages

/-- The pages that are written next, given whether the stream has ended. -/
def nextPages (eos : Bool) (pages : List OggPage) : List OggPage :=
  if eos then [] else throughEos pages

def pagesBytes (pages : List OggPage) : List UInt8 := pages.flatMap OggPage.bytes

theorem nextPages_cons (page : OggPage) (pages : List OggPage) :
    nextPages false (page :: pages) = page :: nextPages page.eos pages := by
  rw [nextPages, if_neg Bool.false_ne_true, throughEos, nextPages]
  split_ifs <;> rfl

theorem nextPages_append (eos : Bool) (l m : List OggPage) :
    nextPages eos (l ++ m) = nextPages eos l ++ nextPages (eos || l.any OggPage.eos) m := by
  induction l generalizing eos with
  | nil => cases eos <;> rfl
  | cons page l ih =>
      cases eos with
      | true => rfl
      | false =>
          rw [List.cons_append, nextPages_cons, nextPages_cons, ih, List.cons_append,
            Bool.false_or, List.any_cons]

def VorbisEncoder.pages (encoder : VorbisEncoder φ) (given : List (Rows φ × ℕ)) : List OggPage :=
  (List.range given.length).flatMap (fun n => (encoder.blocks (given.take (n + 1))).flatten)

theorem VorbisEncoder.pages_concat (encoder : VorbisEncoder φ) (given : List (Rows φ × ℕ))
    (chunk : Rows φ × ℕ) :
    encoder.pages (given ++ [chunk]) =
      encoder.pages given ++ (encoder.blocks (given ++ [chunk])).flatten := by
  have hlength : (given ++ [chunk]).length = given.length + 1 := List.length_append
  rw [pages, hlength, List.range_succ, List.flatMap_append, List.flatMap_singleton,
    List.take_of_length_le hlength.le, pages]
  congr 1
  apply List.flatMap_congr
  intro n hn
  rw [List.take_append_of_le_length (Nat.succ_le_of_lt (List.mem_range.mp hn))]

def VorbisEncoder.output (encoder : VorbisEncoder φ) (given : List (Rows φ × ℕ)) : List UInt8 :=
  pagesBytes (throughEos (encoder.pages given))

theorem VorbisEncoder.output_concat (encoder : VorbisEncoder φ) {given : List (Rows φ × ℕ)}
    (hopen : (encoder.pages given).any OggPage.eos = false) (chunk : Rows φ × ℕ) :
    encoder.output (given ++ [chunk]) = encoder.output given ++
      pagesBytes (nextPages false (encoder.blocks (given ++ [chunk])).flatten) := by
  change pagesBytes (nextPages false _) = pagesBytes (nextPages false _) ++ _
  rw [VorbisEncoder.pages_concat, nextPages_append, hopen, pagesBytes, List.flatMap_append]
  rfl

namespace OggState

/-- Writing leaves the input and what is counted of it as they are. -/
structure SameInput (s t : OggState σ φ) : Prop where
  input : t.input = s.input
  given : t.given = s.given
  samplesTotal : t.samplesTotal = s.samplesTotal
  progress : t.progress = s.progress

theorem SameInput.trans {s t u : OggState σ φ} (h : SameInput s t) (h₂ : SameInput t u) :
    SameInput s u :=
  ⟨h₂.input.trans h.input, h₂.given.trans h.given, h₂.samplesTotal.trans h.samplesTotal,
    h₂.progress.trans h.progress⟩

/-- A status that a failed call of `apr_file_write_full` has returned. -/
def Failed (disk : ℕ → ℕ → FileWrite) (status : ℤ) : Prop :=
  status ≠ 0 ∧ ∃ n len, (disk n len).status = status

/-- All bytes are written to the file, or a first part of them and there is an error. -/
inductive Writes (disk : ℕ → ℕ → FileWrite) (s : OggState σ φ) (bytes : List UInt8) (eos : Bool) :
    Except (OggStop σ φ ε) (OggState σ φ) → Prop
  | done (t : OggState σ φ) (file : t.file = s.file.write bytes) (ended : t.eos = eos)
      (same : SameInput s t) : Writes disk s bytes eos (.ok t)
  | failed (t : OggState σ φ) (status : ℤ) (written : List UInt8) (part : written <+: bytes)
      (file : t.file = s.file.write written) (failed : Failed disk status) (same : SameInput s t) :
      Writes disk s bytes eos (.error (.returned t status))

variable {disk : ℕ → ℕ → FileWrite} {s : OggState σ φ}

theorem Writes.bind {bytes more : List UInt8} {eos eos₂ : Bool}
    {r : Except (OggStop σ φ ε) (OggState σ φ)}
    {f : OggState σ φ → Except (OggStop σ φ ε) (OggState σ φ)} (h : Writes disk s bytes eos r)
    (hf : ∀ t : OggState σ φ, t.eos = eos → SameInput s t → Writes disk t more eos₂ (f t)) :
    Writes disk s (bytes ++ more) eos₂ (r.bind f) := by
  cases h with
  | done t hfile heos hsame =>
      change Writes disk s (bytes ++ more) eos₂ (f t)
      have hnext := hf t heos hsame
      generalize f t = r at hnext ⊢
      cases hnext with
      | done u hfile₂ heos₂ hsame₂ =>
          refine .done u ?_ heos₂ (hsame.trans hsame₂)
          rw [hfile₂, hfile, OpenFile.write_write]
      | failed u status written hpart hfile₂ hfailed hsame₂ =>
          refine .failed u status (bytes ++ written) ?_ ?_ hfailed (hsame.trans hsame₂)
          · exact (List.prefix_append_right_inj _).mpr hpart
          · rw [hfile₂, hfile, OpenFile.write_write]
  | failed t status written hpart hfile hfailed hsame =>
      exact .failed t status written (hpart.trans (List.prefix_append _ _)) hfile hfailed hsame

theorem Writes.of_same {s₂ : OggState σ φ} {bytes : List UInt8} {eos : Bool}
    {r : Except (OggStop σ φ ε) (OggState σ φ)} (h : Writes disk s₂ bytes eos r)
    (hfile : s₂.file = s.file) (hsame : SameInput s s₂) : Writes disk s bytes eos r := by
  cases h with
  | done t hfile₂ heos hsame₂ => exact .done t (hfile ▸ hfile₂) heos (hsame.trans hsame₂)
  | failed t status written hpart hfile₂ hfailed hsame₂ =>
      exact .failed t status written hpart (hfile ▸ hfile₂) hfailed (hsame.trans hsame₂)

/-- `apr_file_write_full` succeeds only if all is written. -/
def Documented (disk : ℕ → ℕ → FileWrite) : Prop :=
  ∀ n len, (disk n len).status = 0 → (disk n len).written = len

theorem writeFull_writes (hdisk : Documented disk) (bytes : List UInt8) (s : OggState σ φ) :
    Writes disk s bytes s.eos (s.writeFull (ε := ε) disk bytes) := by
  rw [writeFull]
  split_ifs with hpart
  · refine .failed _ _ _ (List.take_prefix _ _) rfl ⟨fun hstatus => ?_, _, _, rfl⟩
      ⟨rfl, rfl, rfl, rfl⟩
    exact hpart.elim (fun hne => hne (hdisk _ _ hstatus)) (fun hne => hne hstatus)
  · rw [not_or, not_not] at hpart
    refine .done _ ?_ rfl ⟨rfl, rfl, rfl, rfl⟩
    dsimp only
    rw [hpart.1, List.take_length]

theorem writePage_writes (hdisk : Documented disk) (page : OggPage) (s : OggState σ φ) :
    Writes disk s page.bytes (s.eos || page.eos) (s.writePage (ε := ε) disk page) := by
  refine (writeFull_writes hdisk page.header s).bind (fun t heos _ => ?_)
  have hbody := writeFull_writes (ε := ε) hdisk page.body t
  generalize t.writeFull disk page.body = r at hbody ⊢
  cases hbody with
  | done u hfile heos₂ hsame =>
      refine .done _ hfile ?_ ⟨hsame.input, hsame.given, hsame.samplesTotal, hsame.progress⟩
      dsimp only
      rw [heos₂, heos]
      cases page.eos <;> simp
  | failed u status written hpart hfile hfailed hsame =>
      exact .failed u status written hpart hfile hfailed hsame

theorem pageLoop_writes (hdisk : Documented disk) (pages : List OggPage) (s : OggState σ φ) :
    Writes disk s (pagesBytes (nextPages s.eos pages)) (s.eos || pages.any OggPage.eos)
      (pageLoop (ε := ε) disk pages s) := by
  induction pages generalizing s with
  | nil =>
      refine .done s ?_ (Bool.or_false _).symm ⟨rfl, rfl, rfl, rfl⟩
      cases s.eos <;> exact s.file.write_nil.symm
  | cons page pages ih =>
      rw [pageLoop]
      cases hopen : s.eos with
      | true => exact .done s s.file.write_nil.symm hopen ⟨rfl, rfl, rfl, rfl⟩
      | false =>
          rw [if_neg Bool.false_ne_true, nextPages_cons, pagesBytes, List.flatMap_cons,
            List.any_cons, ← Bool.or_assoc]
          refine (writePage_writes hdisk page s).bind (fun t heos _ => ?_)
          rw [hopen, Bool.false_or] at heos
          rw [Bool.false_or, ← heos]
          exact ih t

theorem blockLoop_writes (hdisk : Documented disk) (blocks : List (List OggPage))
    (s : OggState σ φ) :
    Writes disk s (pagesBytes (nextPages s.eos blocks.flatten))
      (s.eos || blocks.flatten.any OggPage.eos) (blockLoop (ε := ε) disk blocks s) := by
  induction blocks generalizing s with
  | nil =>
      refine .done s ?_ (Bool.or_false _).symm ⟨rfl, rfl, rfl, rfl⟩
      cases s.eos <;> exact s.file.write_nil.symm
  | cons pages blocks ih =>
      rw [List.flatten_cons, nextPages_append, List.any_append, ← Bool.or_assoc, pagesBytes,
        List.flatMap_append]
      apply Writes.bind
      · exact (pageLoop_writes hdisk pages { s with packetsDone := s.packetsDone + 1 }).of_same rfl
          ⟨rfl, rfl, rfl, rfl⟩
      · intro t heos _
        rw [← heos]
        exact ih t

/-- What libvorbis has got for a channel. -/
def givenSamples (given : List (Rows φ × ℕ)) (i : ℕ) : List φ :=
  given.flatMap (fun chunk => chunk.1.part i 0 chunk.2)

theorem givenSamples_concat (given : List (Rows φ × ℕ)) (buffer : Rows φ) (n i : ℕ) :
    givenSamples (given ++ [(buffer, n)]) i = givenSamples given i ++ buffer.part i 0 n := by
  rw [givenSamples, List.flatMap_append, List.flatMap_singleton]
  rfl

section AnalysisWrote
variable (percent : ℕ → ℕ → UInt32) (options : EncodingOptions) (s : OggState σ φ) (input : σ)
  (buffer : Rows φ) (samplesRead : ℕ)

theorem analysisWrote_keeps :
    (s.analysisWrote percent options input buffer samplesRead).file = s.file ∧
      (s.analysisWrote percent options input buffer samplesRead).eos = s.eos ∧
      (s.analysisWrote percent options input buffer samplesRead).input = input := by
  rw [analysisWrote]
  split_ifs <;> exact ⟨rfl, rfl, rfl⟩

theorem given_analysisWrote : (s.analysisWrote percent options input buffer samplesRead).given =
    s.given ++ [(buffer, samplesRead)] := by
  rcases eq_or_ne samplesRead 0 with rfl | hsome
  · rfl
  · rw [analysisWrote, if_neg hsome]

theorem samplesTotal_analysisWrote :
    (s.analysisWrote percent options input buffer samplesRead).samplesTotal =
      s.samplesTotal + samplesRead := by
  rcases eq_or_ne samplesRead 0 with rfl | hsome
  · rfl
  · rw [analysisWrote, if_neg hsome]

theorem progress_analysisWrote {p : UInt32}
    (hp : p ∈ (s.analysisWrote percent options input buffer samplesRead).progress) :
    p ∈ s.progress ∨
      p = percent (s.samplesTotal + samplesRead) options.totalSamplesPerChannel := by
  rw [analysisWrote] at hp
  split_ifs at hp with hnone hpackets
  · exact .inl hp
  · obtain ⟨-, -, rfl⟩ := Option.mem_map.mp hp
    exact .inr rfl
  · exact .inl hp

end AnalysisWrote

end OggState

/-- libvorbis and libogg put out a page that ends the stream when the end was announced, and none
before. -/
structure VorbisEncoder.Ends (encoder : VorbisEncoder φ) : Prop where
  early : ∀ given : List (Rows φ × ℕ), (∀ chunk ∈ given, chunk.2 ≠ 0) →
    (encoder.blocks given).flatten.any OggPage.eos = false
  last : ∀ given : List (Rows φ × ℕ), (∀ chunk ∈ given, chunk.2 ≠ 0) → ∀ buffer,
    (encoder.blocks (given ++ [(buffer, 0)])).flatten.any OggPage.eos = true

theorem VorbisEncoder.Ends.pages {encoder : VorbisEncoder φ} (h : encoder.Ends)
    {given : List (Rows φ × ℕ)} (hgiven : ∀ chunk ∈ given, chunk.2 ≠ 0) :
    (encoder.pages given).any OggPage.eos = false := by
  rw [VorbisEncoder.pages, List.any_flatMap, List.any_eq_false]
  intro n _
  rw [h.early _ (fun chunk hchunk => hgiven chunk (List.mem_of_mem_take hchunk))]
  exact Bool.false_ne_true

/-- A call delivers the next samples of each channel, up to its request, and keeps the others. -/
structure Delivers (c : ℕ) (process : σ → Rows φ → ℕ → Except ε (σ × Rows φ × ℕ))
    (Ready : σ → Prop) (left : σ → ℕ → List φ) (numLeft : σ → ℕ) : Prop where
  length : ∀ input, ∀ i, (left input i).length = numLeft input
  read : ∀ input, Ready input → ∀ buffer request, ∃ input₂ buffer₂,
    process input buffer request = .ok (input₂, buffer₂, min request (numLeft input)) ∧
      Ready input₂ ∧ numLeft input₂ = numLeft input - request ∧
      ∀ i < c, buffer₂.part i 0 (min request (numLeft input)) = (left input i).take request ∧
        left input₂ i = (left input i).drop request

namespace OggState

/-- The progress is the initial one or that of a number of samples, at most all of them. -/
def Progressed (percent : ℕ → ℕ → UInt32) (options : EncodingOptions) (total : ℕ) (p : UInt32) :
    Prop :=
  p = 0 ∨ ∃ n ≤ total, p = percent n options.totalSamplesPerChannel

/-- The samples that libvorbis has got and those that are left of the input are all samples. -/
structure Reading (c : ℕ) (percent : ℕ → ℕ → UInt32) (options : EncodingOptions)
    (Ready : σ → Prop) (left : σ → ℕ → List φ) (numLeft : σ → ℕ) (samples : ℕ → List φ)
    (total : ℕ) (s : OggState σ φ) : Prop where
  ready : Ready s.input
  given : ∀ i < c, givenSamples s.given i ++ left s.input i = samples i
  counted : s.samplesTotal + numLeft s.input = total
  progress : ∀ p ∈ s.progress, Progressed percent options total p

/-- The state at the start of a round. -/
structure Open (encoder : VorbisEncoder φ) (file : OpenFile) (s : OggState σ φ) : Prop where
  eos : s.eos = false
  file : s.file = file.write (encoder.output s.given)
  chunks : ∀ chunk ∈ s.given, chunk.2 ≠ 0

/-- libvorbis has got all samples and then the end. -/
structure EncodedAll (c : ℕ) (samples : ℕ → List φ) (t : OggState σ φ) : Prop where
  given : ∀ i < c, givenSamples t.given i = samples i
  ended : ∃ chunks buffer, t.given = chunks ++ [(buffer, 0)] ∧ ∀ chunk ∈ chunks, chunk.2 ≠ 0

section Run
variable {c : ℕ} {process : σ → Rows φ → ℕ → Except ε (σ × Rows φ × ℕ)}
  {encoder : VorbisEncoder φ} {disk : ℕ → ℕ → FileWrite} {percent : ℕ → ℕ → UInt32}
  {options : EncodingOptions} {Ready : σ → Prop} {left : σ → ℕ → List φ} {numLeft : σ → ℕ}
  {samples : ℕ → List φ} {total : ℕ} {file : OpenFile} {s : OggState σ φ}

theorem Reading.of_same {t : OggState σ φ}
    (h : Reading c percent options Ready left numLeft samples total s) (hsame : SameInput s t) :
    Reading c percent options Ready left numLeft samples total t := by
  obtain ⟨hinput, hgiven, htotal, hprogress⟩ := hsame
  exact ⟨hinput ▸ h.ready, hinput ▸ hgiven ▸ h.given, hinput ▸ htotal ▸ h.counted,
    hprogress ▸ h.progress⟩

variable (encoder) in
theorem Reading.read (h : Reading c percent options Ready left numLeft samples total s)
    (hdelivers : Delivers c process Ready left numLeft) :
    ∃ input buffer, process s.input (encoder.analysisBuffer s.given) options.samplesToRequest =
        .ok (input, buffer, min options.samplesToRequest (numLeft s.input)) ∧
      numLeft input = numLeft s.input - options.samplesToRequest ∧
      Reading c percent options Ready left numLeft samples total
        (s.analysisWrote percent options input buffer
          (min options.samplesToRequest (numLeft s.input))) := by
  obtain ⟨input, buffer, hread, hready, hleft, hsamples⟩ :=
    hdelivers.read s.input h.ready (encoder.analysisBuffer s.given) options.samplesToRequest
  obtain ⟨-, -, hinput⟩ := analysisWrote_keeps percent options s input buffer
    (min options.samplesToRequest (numLeft s.input))
  have hcounted := h.counted
  refine ⟨input, buffer, hread, hleft, hinput.symm ▸ hready, ?_, ?_, ?_⟩
  · intro i hi
    obtain ⟨htaken, hrest⟩ := hsamples i hi
    rw [given_analysisWrote, hinput, givenSamples_concat, htaken, hrest, List.append_assoc,
      List.take_append_drop, h.given i hi]
  · rw [samplesTotal_analysisWrote, hinput, hleft]
    omega
  · intro p hp
    rcases progress_analysisWrote percent options s input buffer _ hp with hp | rfl
    · exact h.progress p hp
    · exact .inr ⟨_, by omega, rfl⟩

/-- A round reads the next samples, and writes the pages that come out with them. -/
theorem Open.round (h : Open encoder file s)
    (hreading : Reading c percent options Ready left numLeft samples total s)
    (hdelivers : Delivers c process Ready left numLeft) (hends : encoder.Ends)
    (hdisk : Documented disk) :
    ∃ (s₂ : OggState σ φ) (buffer : Rows φ) (r : Except (OggStop σ φ ε) (OggState σ φ)),
      (∀ rounds, s.encodeLoop process encoder disk percent options (rounds + 1) =
        r.bind (encodeLoop process encoder disk percent options rounds)) ∧
      Reading c percent options Ready left numLeft samples total s₂ ∧
      numLeft s₂.input = numLeft s.input - options.samplesToRequest ∧
      s₂.given = s.given ++ [(buffer, min options.samplesToRequest (numLeft s.input))] ∧
      Writes disk s₂ (pagesBytes (nextPages false (encoder.blocks s₂.given).flatten))
        ((encoder.blocks s₂.given).flatten.any OggPage.eos) r ∧
      s₂.file = file.write (encoder.output s.given) ∧
      encoder.output s₂.given = encoder.output s.given ++
        pagesBytes (nextPages false (encoder.blocks s₂.given).flatten) := by
  obtain ⟨input, buffer, hread, hleft, hreading₂⟩ := hreading.read encoder hdelivers
  obtain ⟨hfile, heos, hinput⟩ := analysisWrote_keeps percent options s input buffer
    (min options.samplesToRequest (numLeft s.input))
  have hgiven := given_analysisWrote percent options s input buffer
    (min options.samplesToRequest (numLeft s.input))
  have hwrites := blockLoop_writes (ε := ε) hdisk (encoder.blocks (s.analysisWrote percent options
    input buffer (min options.samplesToRequest (numLeft s.input))).given)
    (s.analysisWrote percent options input buffer (min options.samplesToRequest (numLeft s.input)))
  rw [heos, h.eos, Bool.false_or] at hwrites
  refine ⟨_, buffer, _, fun rounds => ?_, hreading₂, ?_, hgiven, hwrites, ?_, ?_⟩
  · rw [encodeLoop, if_neg (by rw [h.eos]; exact Bool.false_ne_true), hread]
  · rw [hinput, hleft]
  · rw [hfile, h.file]
  · rw [hgiven, encoder.output_concat (hends.pages h.chunks)]

/-- The rounds end, when everything is read and written or with an error of a write. -/
theorem Open.run (h : Open encoder file s)
    (hreading : Reading c percent options Ready left numLeft samples total s)
    (hdelivers : Delivers c process Ready left numLeft) (hends : encoder.Ends)
    (hdisk : Documented disk) (hrequest : 0 < options.samplesToRequest) :
    ∃ enough t status, (∀ rounds, enough ≤ rounds →
        OggStop.result (s.encodeLoop process encoder disk percent options rounds) =
          some (t, status)) ∧
      Reading c percent options Ready left numLeft samples total t ∧
      ∃ written, t.file = file.write written ∧ written <+: encoder.output t.given ∧
        (status = 0 ∧ written = encoder.output t.given ∧ EncodedAll c samples t ∨
          Failed disk status) := by
  induction hn : numLeft s.input using Nat.strong_induction_on generalizing s with
  | _ n ih =>
      obtain ⟨s₂, buffer, r, hround, hreading₂, hleft, hgiven, hwrites, hfile, hnext⟩ :=
        h.round hreading hdelivers hends hdisk
      cases hwrites with
      | failed t status written hpart hfile₂ hfailed hsame =>
          refine ⟨1, t, status, fun rounds henough => ?_, hreading₂.of_same hsame,
            encoder.output s.given ++ written, ?_, ?_, .inr hfailed⟩
          · obtain ⟨rounds, rfl⟩ := Nat.exists_eq_succ_of_ne_zero (Nat.ne_zero_of_lt henough)
            rw [Nat.succ_eq_add_one, hround]
            rfl
          · rw [hfile₂, hfile, OpenFile.write_write]
          · rw [hsame.given, hnext]
            exact (List.prefix_append_right_inj _).mpr hpart
      | done t hfile₂ heos hsame =>
          have houtput : t.file = file.write (encoder.output t.given) := by
            rw [hfile₂, hfile, OpenFile.write_write, hsame.given, hnext]
          have hreading₃ := hreading₂.of_same hsame
          rcases Nat.eq_zero_or_pos n with rfl | hpos
          · -- nothing was left, so that the end is announced and the last page comes out
            rw [hn, Nat.min_zero] at hgiven
            have hended : t.eos = true := by
              rw [heos, hgiven]
              exact hends.last _ h.chunks _
            refine ⟨2, t, 0, fun rounds henough => ?_, hreading₃, _, houtput,
              List.prefix_refl _, .inl ⟨rfl, rfl, ?_, s.given, buffer, hsame.given.trans hgiven,
                h.chunks⟩⟩
            · obtain ⟨rounds, rfl⟩ := Nat.exists_eq_add_of_le' henough
              rw [hround]
              change
                OggStop.result (t.encodeLoop process encoder disk percent options (rounds + 1)) = _
              rw [encodeLoop, if_pos hended]
              rfl
            · intro i hi
              have hnone : left t.input i = [] := by
                rw [← List.length_eq_zero_iff, hdelivers.length, hsame.input, hleft, hn,
                  Nat.zero_sub]
              rw [← hreading₃.given i hi, hnone, List.append_nil]
          · have hopen : ∀ chunk ∈ s₂.given, chunk.2 ≠ 0 := by
              intro chunk hchunk
              rw [hgiven, List.mem_append, List.mem_singleton] at hchunk
              rcases hchunk with hchunk | rfl
              · exact h.chunks chunk hchunk
              · dsimp only
                omega
            have ht : Open encoder file t := by
              refine ⟨?_, houtput, hsame.given ▸ hopen⟩
              rw [heos]
              exact hends.early _ hopen
            obtain ⟨enough, t₂, status, hrounds, hrest⟩ :=
              ih (numLeft t.input) (by rw [hsame.input, hleft]; omega) ht hreading₃ rfl
            refine ⟨enough + 1, t₂, status, fun rounds henough => ?_, hrest⟩
            obtain ⟨rounds, rfl⟩ := Nat.exists_eq_succ_of_ne_zero (Nat.ne_zero_of_lt henough)
            rw [Nat.succ_eq_add_one, hround]
            exact hrounds rounds (Nat.le_of_succ_le_succ henough)

end Run

end OggState

open FlacFile OggState

variable (toFloat : ℤ → ℕ → φ)

end ModMp
