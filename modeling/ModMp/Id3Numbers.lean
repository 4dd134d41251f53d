import ModMp.Id3Tags

/-!
# The fields of an MP3 file

The first slash of a number becomes the NUL that ends it, and the total starts behind it. The other
fields are in other blocks and stay as the search for the frames has left them.
-/

namespace ModMp
open CLib StringPool MusicFile

def beforeSlash (s : CString) : CString where
  bytes := s.bytes.takeWhile (· != slashByte)
  nul_free h := s.nul_free ((List.takeWhile_sublist _).subset h)

def afterSlash (s : CString) : Option CString :=
  if slashByte ∈ s.bytes then
    some ⟨(s.bytes.dropWhile (· != slashByte)).tail, fun h =>
      s.nul_free ((List.dropWhile_sublist _).subset (List.mem_of_mem_tail h))⟩
  else none

theorem beforeSlash_eq {s : CString} {u v : Bytes} (hs : s.bytes = u ++ slashByte :: v)
    (hu : slashByte ∉ u) : (beforeSlash s).bytes = u := by
  change s.bytes.takeWhile (· != slashByte) = u
  rw [hs]
  exact takeWhile_ne_append hu

theorem afterSlash_eq {s : CString} {u v : Bytes} (hs : s.bytes = u ++ slashByte :: v)
    (hu : slashByte ∉ u) : ∃ t, afterSlash s = some t ∧ t.bytes = v := by
  have hmem : slashByte ∈ s.bytes := by
    rw [hs]
    exact List.mem_append_right _ List.mem_cons_self
  refine ⟨_, if_pos hmem, ?_⟩
  change (s.bytes.dropWhile (· != slashByte)).tail = v
  rw [← drop_length_takeWhile, hs, takeWhile_ne_append hu, List.drop_left]
  rfl

theorem beforeSlash_of_notMem {s : CString} (h : slashByte ∉ s.bytes) : beforeSlash s = s :=
  CString.eq_of_bytes (takeWhile_ne_of_notMem h)

section Loop

variable {pool : Pool} {p : Pointer} {s : CString}

theorem strlen_eq (hmemory : memoryAt pool p = s.bytes ++ [0]) :
    strlen pool p = some s.bytes.length := by
  rw [strlen, stringAt_of_memoryAt hmemory]
  rfl

theorem splitLoop_cons (hmemory : memoryAt pool p = s.bytes ++ [0]) {u w : Bytes} {c : UInt8}
    (hs : s.bytes = u ++ c :: w) :
    splitLoop pool p u.length =
      if c = slashByte then
        some (store pool (p.add u.length) 0, some (p.add (u.length + 1)))
      else splitLoop pool p (u ++ [c]).length := by
  have hlt : u.length < s.bytes.length := by
    rw [hs, List.length_append, List.length_cons]
    omega
  have hload : load pool (p.add u.length) = some c := by
    rw [load_add, hmemory, List.getElem?_append_left hlt, hs, List.getElem?_append_right le_rfl,
      Nat.sub_self]
    rfl
  rw [splitLoop, List.length_append, List.length_singleton]
  split
  · next hnone =>
    rw [strlen_eq hmemory] at hnone
    cases hnone
  · next length hlength =>
    rw [strlen_eq hmemory] at hlength
    cases hlength
    rw [if_pos hlt, hload]

theorem splitLoop_end (hmemory : memoryAt pool p = s.bytes ++ [0]) :
    splitLoop pool p s.bytes.length = some (pool, none) := by
  rw [splitLoop]
  split
  · next hnone =>
    rw [strlen_eq hmemory] at hnone
    cases hnone
  · next length hlength =>
    rw [strlen_eq hmemory] at hlength
    cases hlength
    exact if_neg (lt_irrefl _)

theorem splitLoop_none (hmemory : memoryAt pool p = s.bytes ++ [0]) {w : Bytes}
    (hw : slashByte ∉ w) {u : Bytes} (hs : s.bytes = u ++ w) :
    splitLoop pool p u.length = some (pool, none) := by
  induction w generalizing u with
  | nil =>
      rw [List.append_nil] at hs
      rw [← hs]
      exact splitLoop_end hmemory
  | cons c w ih =>
      obtain ⟨hc, hw⟩ := List.ne_and_not_mem_of_not_mem_cons hw
      rw [splitLoop_cons hmemory hs, if_neg (Ne.symm hc)]
      exact ih hw (by rw [hs, List.append_assoc, List.singleton_append])

theorem splitLoop_some (hmemory : memoryAt pool p = s.bytes ++ [0]) {w v : Bytes}
    (hw : slashByte ∉ w) {u : Bytes} (hs : s.bytes = u ++ (w ++ slashByte :: v)) :
    splitLoop pool p u.length = some (store pool (p.add (u ++ w).length) 0,
      some (p.add ((u ++ w).length + 1))) := by
  induction w generalizing u with
  | nil =>
      rw [splitLoop_cons hmemory hs, if_pos rfl, List.append_nil]
  | cons c w ih =>
      obtain ⟨hc, hw⟩ := List.ne_and_not_mem_of_not_mem_cons hw
      rw [splitLoop_cons hmemory hs, if_neg (Ne.symm hc),
        ih hw (by rw [hs, List.append_assoc]; rfl), List.append_assoc]
      rfl

/-- The loop cuts a number, and writes to no other block. -/
theorem splitLoop_spec (hmemory : memoryAt pool p = s.bytes ++ [0]) :
    ∃ pool' tail, splitLoop pool p 0 = some (pool', tail) ∧
      stringAt pool' p = some (beforeSlash s) ∧ Shows pool' tail (afterSlash s) ∧
      (∀ q, q.block ≠ p.block → memoryAt pool' q = memoryAt pool q) ∧
      ∀ q, tail = some q → q.block = p.block := by
  by_cases hmem : slashByte ∈ s.bytes
  · obtain ⟨u, v, hs, hu⟩ := List.eq_append_cons_of_mem hmem
    refine ⟨_, _, splitLoop_some hmemory hu (u := []) hs, ?_, ?_, ?_, ?_⟩
    · apply stringAt_of_memoryAt (r := v ++ [0])
      rw [List.nil_append, memoryAt_store_add, hmemory, hs, beforeSlash_eq hs hu,
        List.append_assoc, List.set_append_right _ _ le_rfl, Nat.sub_self]
      rfl
    · obtain ⟨t, ht, htv⟩ := afterSlash_eq hs hu
      rw [ht, Shows, Option.map_some, Option.map_some, Option.some_inj]
      apply stringAt_of_memoryAt (r := [])
      rw [memoryAt_add, memoryAt_store_add, List.drop_set_of_lt (lt_add_one _), hmemory, hs,
        htv, List.nil_append, List.append_assoc, ← List.drop_drop, List.drop_left]
      rfl
    · exact fun q hq => memoryAt_store_of_ne 0 hq
    · rintro q ⟨⟩
      rfl
  · refine ⟨pool, none, splitLoop_none hmemory hmem (u := []) rfl, ?_, ?_, fun _ _ => rfl, ?_⟩
    · rw [beforeSlash_of_notMem hmem]
      exact stringAt_of_memoryAt hmemory
    · rw [afterSlash, if_neg hmem]
      rfl
    · exact fun q hq => absurd hq.symm (Option.some_ne_none q)

end Loop

/-- What the cut of a number changes. -/
structure Split (number total : TextField) (n : Option CString) (s s' : Pool × MusicFile) :
    Prop where
  fields : ∀ f, f ≠ total → s'.2.text f = s.2.text f
  memory : ∀ q, (∀ p, s.2.text number = some p → q.block ≠ p.block) →
    memoryAt s'.1 q = memoryAt s.1 q
  before : Shows s'.1 (s.2.text number) (n.map beforeSlash)
  after : Shows s'.1 (s'.2.text total) (n.bind afterSlash)
  shared : ∀ q, s'.2.text total = some q → ∃ p, s.2.text number = some p ∧ q.block = p.block

theorem splitNumber_split {number total : TextField} {s : Pool × MusicFile} {n : Option CString}
    (hmemory : (s.2.text number).map (memoryAt s.1) = n.map (fun t => t.bytes ++ [0]))
    (hnull : s.2.text total = none) :
    ∃ s', splitNumber number total s = some s' ∧ Split number total n s s' := by
  cases hp : s.2.text number with
  | none =>
      rw [hp, Option.map_none] at hmemory
      have hn : n = none := Option.map_eq_none_iff.mp hmemory.symm
      refine ⟨s, by rw [splitNumber, hp], fun _ _ => rfl, fun _ _ => rfl, ?_, ?_, ?_⟩
      · rw [hp, hn]
        rfl
      · rw [hnull, hn]
        rfl
      · rw [hnull]
        exact nofun
  | some p =>
      rw [hp, Option.map_some] at hmemory
      obtain ⟨t, rfl, ht⟩ := Option.map_eq_some_iff.mp hmemory.symm
      obtain ⟨pool, tail, hloop, hbefore, hafter, hothers, hblock⟩ := splitLoop_spec ht.symm
      have htotal : (s.2.setTotal total tail).text total = tail := by
        cases tail with
        | none => exact hnull
        | some q => exact text_setText_self s.2 total q
      have hsplit : splitNumber number total s = some (pool, s.2.setTotal total tail) := by
        rw [splitNumber, hp]
        change (splitLoop s.1 p 0).map _ = _
        rw [hloop]
        rfl
      refine ⟨_, hsplit, fun f hf => ?_, fun q hq => hothers q (hq p hp), ?_, ?_, fun q hq => ?_⟩
      · cases tail with
        | none => rfl
        | some q => exact text_setText_of_ne hf s.2 q
      · rw [hp]
        exact congrArg some hbefore
      · rw [htotal]
        exact hafter
      · exact ⟨p, hp, hblock q (htotal.symm.trans hq)⟩

section Numbers

variable {content : TextField → Option Bytes} {track disc : Option CString}
  {s₁ s₂ s₃ : Pool × MusicFile} (h₁ : Holds s₁.1 s₁.2 content)
  (h₂ : Split .trackNo .totalTracks track s₁ s₂)
include h₁ h₂

theorem memoryAt_trackSplit {f : TextField} {p : Pointer} (hf : f ≠ .trackNo)
    (hp : s₁.2.text f = some p) : memoryAt s₂.1 p = memoryAt s₁.1 p :=
  h₂.memory p (fun q hq => h₁.apart f .trackNo p q hp hq hf)

variable (h₃ : Split .discNo .discsInSet disc s₂ s₃)
include h₃

/-- The cut of the disc leaves the memory of the fields in other blocks than that of the disc. -/
theorem memoryAt_discSplit {f : TextField} {p q : Pointer} (hf : f ≠ .discNo)
    (hq : s₁.2.text f = some q) (hblock : p.block = q.block) :
    memoryAt s₃.1 p = memoryAt s₂.1 p := by
  refine h₃.memory p (fun r hr => ?_)
  rw [h₂.fields .discNo (by decide)] at hr
  rw [hblock]
  exact h₁.apart f .discNo q r hq hr hf

theorem shows_uncut {f : TextField} {s : Option CString} (hs : content f = s.map CString.bytes)
    (hf : f ∉ [TextField.trackNo, .totalTracks, .discNo, .discsInSet]) :
    Shows s₃.1 (s₃.2.text f) s := by
  simp only [List.mem_cons, List.not_mem_nil, or_false, not_or] at hf
  obtain ⟨htrack, htotal, hdisc, hdiscs⟩ := hf
  rw [h₃.fields f hdiscs, h₂.fields f htotal]
  refine h₁.shows_of_memoryAt hs (fun p hp => ?_)
  rw [memoryAt_discSplit h₁ h₂ h₃ hdisc hp rfl, memoryAt_trackSplit h₁ h₂ htrack hp]

theorem shows_trackNo : Shows s₃.1 (s₃.2.text .trackNo) (track.map beforeSlash) := by
  rw [h₃.fields .trackNo (by decide), h₂.fields .trackNo (by decide)]
  exact h₂.before.of_memoryAt (fun p hp => memoryAt_discSplit h₁ h₂ h₃ (by decide) hp rfl)

theorem shows_totalTracks : Shows s₃.1 (s₃.2.text .totalTracks) (track.bind afterSlash) := by
  rw [h₃.fields .totalTracks (by decide)]
  refine h₂.after.of_memoryAt (fun p hp => ?_)
  obtain ⟨q, hq, hblock⟩ := h₂.shared p hp
  exact memoryAt_discSplit h₁ h₂ h₃ (by decide) hq hblock

end Numbers

/-- The fields after the search for the frames. -/
def tagsContent (id3v2 : List Id3v2Text) : TextField → Option Bytes :=
  tagsRequest.foldl (requestContent id3v2) (fun _ => none)

theorem tagsContent_eq {id3v2 : List Id3v2Text} {f : TextField} {id : FrameId}
    (h : tagsContent id3v2 f = ((firstText id3v2 id).map CString.bytes).or none) :
    tagsContent id3v2 f = (firstText id3v2 id).map CString.bytes := h.trans Option.or_none

theorem tagsContent_date (id3v2 : List Id3v2Text) : tagsContent id3v2 .date =
    ((firstText id3v2 (frameId 'T' 'D' 'R' 'C')).or
      (firstText id3v2 (frameId 'T' 'D' 'A' 'T'))).map CString.bytes := by
  rw [Option.map_or, ← Option.or_none (o := Option.map _ (firstText _ (frameId 'T' 'D' 'A' 'T')))]
  rfl

theorem readTags_split (id3v2 : List Id3v2Text) (pool : Pool) (length : ℤ) :
    ∃ s₁ s₂ s₃, readTags id3v2 (pool, cleared length) = some s₃ ∧
      Holds s₁.1 s₁.2 (tagsContent id3v2) ∧
      Split .trackNo .totalTracks (firstText id3v2 (frameId 'T' 'R' 'C' 'K')) s₁ s₂ ∧
      Split .discNo .discsInSet (firstText id3v2 (frameId 'T' 'P' 'O' 'S')) s₂ s₃ := by
  have h₁ : Holds (findId3TagId id3v2 tagsRequest (pool, cleared length)).1
      (findId3TagId id3v2 tagsRequest (pool, cleared length)).2 (tagsContent id3v2) :=
    findId3TagId_holds (s := (pool, cleared length)) (holds_cleared pool length) id3v2 tagsRequest
  have hnumber : ∀ f id, tagsContent id3v2 f = ((firstText id3v2 id).map CString.bytes).or none →
      ((findId3TagId id3v2 tagsRequest (pool, cleared length)).2.text f).map
        (memoryAt (findId3TagId id3v2 tagsRequest (pool, cleared length)).1) =
      (firstText id3v2 id).map (fun t => t.bytes ++ [0]) := by
    intro f id hf
    rw [h₁.memory f, tagsContent_eq hf, Option.map_map]
    rfl
  obtain ⟨s₂, htrack, h₂⟩ := splitNumber_split (hnumber .trackNo _ rfl)
    ((h₁.isNone_iff .totalTracks).mpr rfl)
  have hmemory : (s₂.2.text .discNo).map (memoryAt s₂.1) =
      (firstText id3v2 (frameId 'T' 'P' 'O' 'S')).map (fun t => t.bytes ++ [0]) := by
    rw [h₂.fields .discNo (by decide)]
    refine (Option.map_congr (fun p hp => ?_)).trans (hnumber .discNo _ rfl)
    exact memoryAt_trackSplit h₁ h₂ (by decide) hp
  obtain ⟨s₃, hdisc, h₃⟩ := splitNumber_split hmemory
    ((h₂.fields .discsInSet (by decide)).trans ((h₁.isNone_iff .discsInSet).mpr rfl))
  refine ⟨_, s₂, s₃, ?_, h₁, h₂, h₃⟩
  rw [readTags, htrack]
  exact hdisc

/-- What the fields show, for the text frames of a file. -/
structure TagsRead (id3v2 : List Id3v2Text) (pool : Pool) (song : MusicFile) : Prop where
  title : Shows pool (song.text .title) (firstText id3v2 (frameId 'T' 'I' 'T' '2'))
  artist : Shows pool (song.text .artist) (firstText id3v2 (frameId 'T' 'P' 'E' '1'))
  album : Shows pool (song.text .album) (firstText id3v2 (frameId 'T' 'A' 'L' 'B'))
  year : Shows pool (song.text .year) (firstText id3v2 (frameId 'T' 'Y' 'E' 'R'))
  date : Shows pool (song.text .date)
    ((firstText id3v2 (frameId 'T' 'D' 'R' 'C')).or (firstText id3v2 (frameId 'T' 'D' 'A' 'T')))
  trackNo : Shows pool (song.text .trackNo)
    ((firstText id3v2 (frameId 'T' 'R' 'C' 'K')).map beforeSlash)
  totalTracks : Shows pool (song.text .totalTracks)
    ((firstText id3v2 (frameId 'T' 'R' 'C' 'K')).bind afterSlash)
  discNo : Shows pool (song.text .discNo)
    ((firstText id3v2 (frameId 'T' 'P' 'O' 'S')).map beforeSlash)
  discsInSet : Shows pool (song.text .discsInSet)
    ((firstText id3v2 (frameId 'T' 'P' 'O' 'S')).bind afterSlash)

/-- Each field has the text of the first frame with its id, cut at the first slash if it is a
number. -/
theorem readTags_firstTexts (id3v2 : List Id3v2Text) (pool : Pool) (length : ℤ) :
    ∃ s, readTags id3v2 (pool, cleared length) = some s ∧ TagsRead id3v2 s.1 s.2 := by
  obtain ⟨s₁, s₂, s₃, heq, h₁, h₂, h₃⟩ := readTags_split id3v2 pool length
  refine ⟨s₃, heq, ?_⟩
  exact
    { title := shows_uncut h₁ h₂ h₃ (tagsContent_eq rfl) (by decide)
      artist := shows_uncut h₁ h₂ h₃ (tagsContent_eq rfl) (by decide)
      album := shows_uncut h₁ h₂ h₃ (tagsContent_eq rfl) (by decide)
      year := shows_uncut h₁ h₂ h₃ (tagsContent_eq rfl) (by decide)
      date := shows_uncut h₁ h₂ h₃ (tagsContent_date id3v2) (by decide)
      trackNo := shows_trackNo h₁ h₂ h₃
      totalTracks := shows_totalTracks h₁ h₂ h₃
      discNo := by
        rw [h₃.fields .discNo (by decide)]
        exact h₃.before
      discsInSet := h₃.after }

end ModMp
