import ModMp.FlacTags

/-!
# The first entries of a FLAC file

A search copies the first entry behind the offset that it finds, and the later ones meet a field
that is set. So the fields after some blocks are those before them where these are set, and else
the values of the first entries of the blocks, and this composes over the blocks of the file.
-/

namespace ModMp
open CLib StringPool MusicFile

section Entry

variable {u v : Bytes} (hu : equalsByte ∉ u)
include hu

theorem idxOf?_equals : (u ++ equalsByte :: v).idxOf? equalsByte = some u.length := by
  refine List.idxOf?_eq_some_iff.mpr ⟨by simp, by simp, fun j hj heq => hu ?_⟩
  rw [List.getElem_append_left hj] at heq
  exact heq ▸ List.getElem_mem hj

theorem fieldValue_eq : fieldValue (u ++ equalsByte :: v) = v := by
  rw [fieldValue, ← drop_length_takeWhile, takeWhile_ne_append hu, List.drop_left]
  rfl

theorem copyEntry_eq (field : TextField) (s : Pool × MusicFile) :
    copyEntry field (u ++ equalsByte :: v) s =
      if s.2.text field = none then
        ((pstrmemdup s.1 v).1, s.2.setText field (pstrmemdup s.1 v).2)
      else s := by
  have hdrop : (u ++ equalsByte :: v).drop (u.length + 1) = v := by
    rw [← List.drop_drop, List.drop_left]
    rfl
  have hlength : (u ++ equalsByte :: v).length - (u.length + 1) = v.length := by
    rw [List.length_append, List.length_cons]
    omega
  rw [copyEntry, idxOf?_equals hu]
  dsimp only
  rw [hdrop, hlength, List.take_length]

end Entry

theorem copyEntry_holds {s : Pool × MusicFile} {content : TextField → Option Bytes}
    (h : Holds s.1 s.2 content) {name : CString} {commentEntry : Bytes}
    (hname : namedBy name commentEntry = true) (field : TextField) :
    Holds (copyEntry field commentEntry s).1 (copyEntry field commentEntry s).2
      (Function.update content field ((content field).or (some (fieldValue commentEntry)))) := by
  obtain ⟨hmem, -⟩ := of_decide_eq_true hname
  obtain ⟨u, v, rfl, hu⟩ := List.eq_append_cons_of_mem hmem
  rw [copyEntry_eq hu, fieldValue_eq hu]
  cases hfield : content field with
  | none =>
      rw [if_pos ((h.isNone_iff field).mpr hfield)]
      exact h.setText field v
  | some l =>
      have hsome : s.2.text field ≠ none := by
        rw [Ne, h.isNone_iff field, hfield]
        exact Option.some_ne_none l
      rw [if_neg hsome, Option.some_or, ← hfield, Function.update_eq_self]
      exact h

theorem firstValue_of_findIdx? {name : CString} {comments : List Bytes} {i : ℕ}
    (hidx : comments.findIdx? (namedBy name) = some i) (hi : i < comments.length) :
    firstValue name comments = some (fieldValue comments[i]) := by
  rw [firstValue, List.find?_eq_bind_findIdx?_getElem?, hidx, Option.bind_some,
    List.getElem?_eq_getElem hi, Option.map_some]

theorem firstValue_of_findIdx?_none {name : CString} {comments : List Bytes}
    (hidx : comments.findIdx? (namedBy name) = none) : firstValue name comments = none := by
  rw [firstValue, List.find?_eq_bind_findIdx?_getElem?, hidx, Option.bind_none, Option.map_none]

section Run

variable {findEntryFrom : List Bytes → ℕ → CString → ℤ} (hfind : FindsEntries findEntryFrom)
include hfind

theorem findVorbisCommentEntry_missing {comments : List Bytes} {offset : ℕ} {entry : CString}
    (hidx : (comments.drop offset).findIdx? (namedBy entry) = none) (field : TextField) (fuel : ℕ)
    (s : Pool × MusicFile) :
    findVorbisCommentEntry findEntryFrom comments entry field (fuel + 1) offset s = .ok s := by
  rw [findVorbisCommentEntry]
  exact if_neg (not_le_of_gt (hfind.missing hidx))

theorem findVorbisCommentEntry_found {comments : List Bytes} {offset i : ℕ} {entry : CString}
    (hidx : (comments.drop offset).findIdx? (namedBy entry) = some i)
    (hi : i < (comments.drop offset).length) (field : TextField) (fuel : ℕ)
    (s : Pool × MusicFile) :
    findVorbisCommentEntry findEntryFrom comments entry field (fuel + 1) offset s =
      findVorbisCommentEntry findEntryFrom comments entry field fuel (offset + i + 1)
        (copyEntry field (comments.drop offset)[i] s) := by
  have hget : comments[offset + i]? = some (comments.drop offset)[i] := by
    rw [← List.getElem?_drop, List.getElem?_eq_getElem hi]
  rw [findVorbisCommentEntry, hfind.found hidx, if_pos (Int.natCast_nonneg _), Int.toNat_natCast,
    hget]

/-- The loop from an offset on sets a field that is NULL to the value of the first entry there. -/
theorem findVorbisCommentEntry_holds {comments : List Bytes} {offset : ℕ}
    (hoffset : offset ≤ comments.length) {s : Pool × MusicFile}
    {content : TextField → Option Bytes} (h : Holds s.1 s.2 content) (entry : CString)
    (field : TextField) :
    ∃ s', (∀ fuel, comments.length < fuel + offset →
        findVorbisCommentEntry findEntryFrom comments entry field fuel offset s = .ok s') ∧
      Holds s'.1 s'.2 (Function.update content field
        ((content field).or (firstValue entry (comments.drop offset)))) := by
  induction hn : comments.length - offset using Nat.strong_induction_on
    generalizing offset s content with
  | _ n ih =>
    have hfuel_succ : ∀ fuel, comments.length < fuel + offset → ∃ k, fuel = k + 1 :=
      fun fuel hfuel => Nat.exists_eq_add_one.mpr (by omega)
    cases hidx : (comments.drop offset).findIdx? (namedBy entry) with
    | none =>
        refine ⟨s, fun fuel hfuel => ?_, ?_⟩
        · obtain ⟨fuel, rfl⟩ := hfuel_succ fuel hfuel
          exact findVorbisCommentEntry_missing hfind hidx field fuel s
        · rw [firstValue_of_findIdx?_none hidx, Option.or_none, Function.update_eq_self]
          exact h
    | some i =>
        obtain ⟨hi, hname, -⟩ := List.findIdx?_eq_some_iff_getElem.mp hidx
        have hnext : offset + i + 1 ≤ comments.length := by
          rw [List.length_drop] at hi
          omega
        obtain ⟨s', hrun, hs'⟩ := ih _ (by omega) hnext (copyEntry_holds h hname field) rfl
        refine ⟨s', fun fuel hfuel => ?_, ?_⟩
        · obtain ⟨fuel, rfl⟩ := hfuel_succ fuel hfuel
          rw [findVorbisCommentEntry_found hfind hidx hi]
          exact hrun fuel (by omega)
        · rw [Function.update_idem, Function.update_self, Option.or_assoc, Option.some_or] at hs'
          rw [firstValue_of_findIdx? hidx hi]
          exact hs'

theorem searches_hold (comments : List Bytes) (fields : List (CString × TextField))
    {s : Pool × MusicFile} {content : TextField → Option Bytes} (h : Holds s.1 s.2 content) :
    ∃ s', (∀ fuel, comments.length < fuel → fields.foldlM (fun s e =>
        findVorbisCommentEntry findEntryFrom comments e.1 e.2 fuel 0 s) s = .ok s') ∧
      Holds s'.1 s'.2 (fields.foldl (fun content e =>
        Function.update content e.2 ((content e.2).or (firstValue e.1 comments))) content) := by
  induction fields generalizing s content with
  | nil => exact ⟨s, fun _ _ => rfl, h⟩
  | cons e fields ih =>
      obtain ⟨s₁, hrun₁, h₁⟩ := findVorbisCommentEntry_holds hfind (Nat.zero_le _) h e.1 e.2
      obtain ⟨s₂, hrun₂, h₂⟩ := ih h₁
      refine ⟨s₂, fun fuel hfuel => ?_, h₂⟩
      rw [List.foldlM_cons, hrun₁ fuel (by omega)]
      exact hrun₂ fuel hfuel

end Run

namespace MetadataBlock

def comments : MetadataBlock → List Bytes
  | .vorbisComment comments => comments
  | _ => []

def RateSet : MetadataBlock → Prop
  | .streaminfo _ sampleRate => sampleRate ≠ 0
  | _ => True

end MetadataBlock

/-- The name of the entries that a field is read from. -/
def entryName (f : TextField) : Option CString :=
  (flacFields.find? (fun e => e.2 = f)).map Prod.fst

/-- The fields after the comments of some blocks. -/
def valuesFrom (comments : List Bytes) (content : TextField → Option Bytes) (f : TextField) :
    Option Bytes :=
  (content f).or ((entryName f).bind (fun name => firstValue name comments))

theorem valuesFrom_eq (comments : List Bytes) (content : TextField → Option Bytes) :
    flacFields.foldl (fun content e =>
      Function.update content e.2 ((content e.2).or (firstValue e.1 comments))) content =
      valuesFrom comments content := by
  funext f
  cases f <;> first | rfl | exact Option.or_none.symm

theorem firstValue_append (name : CString) (l m : List Bytes) :
    firstValue name (l ++ m) = (firstValue name l).or (firstValue name m) := by
  rw [firstValue, List.find?_append, Option.map_or]
  rfl

theorem valuesFrom_nil (content : TextField → Option Bytes) : valuesFrom [] content = content := by
  funext f
  rw [valuesFrom]
  cases entryName f <;> exact Option.or_none

theorem valuesFrom_append (l m : List Bytes) (content : TextField → Option Bytes) :
    valuesFrom m (valuesFrom l content) = valuesFrom (l ++ m) content := by
  funext f
  rw [valuesFrom, valuesFrom, valuesFrom, Option.or_assoc]
  cases entryName f with
  | none => rfl
  | some name => rw [Option.bind_some, Option.bind_some, Option.bind_some, firstValue_append]

section Blocks

variable {findEntryFrom : List Bytes → ℕ → CString → ℤ} (hfind : FindsEntries findEntryFrom)
include hfind

theorem readBlock_holds {block : MetadataBlock} (hrate : block.RateSet) {s : Pool × MusicFile}
    {content : TextField → Option Bytes} (h : Holds s.1 s.2 content) :
    ∃ s', (∀ fuel, block.comments.length < fuel → readBlock findEntryFrom fuel s block = .ok s') ∧
      Holds s'.1 s'.2 (valuesFrom block.comments content) := by
  cases block with
  | vorbisComment comments =>
      rw [← valuesFrom_eq]
      exact searches_hold hfind comments flacFields h
  | streaminfo totalSamples sampleRate =>
      refine ⟨_, fun fuel _ => if_neg hrate, ?_⟩
      change Holds _ _ (valuesFrom [] content)
      rw [valuesFrom_nil]
      exact ⟨h.memory, h.inside, h.apart⟩
  | other =>
      refine ⟨s, fun fuel _ => rfl, ?_⟩
      change Holds _ _ (valuesFrom [] content)
      rw [valuesFrom_nil]
      exact h

theorem readBlocks_hold {blocks : List MetadataBlock} (hrate : ∀ b ∈ blocks, b.RateSet)
    {s : Pool × MusicFile} {content : TextField → Option Bytes} (h : Holds s.1 s.2 content) :
    ∃ s', (∀ fuel, (blocks.flatMap MetadataBlock.comments).length < fuel →
        blocks.foldlM (readBlock findEntryFrom fuel) s = .ok s') ∧
      Holds s'.1 s'.2 (valuesFrom (blocks.flatMap MetadataBlock.comments) content) := by
  induction blocks generalizing s content with
  | nil =>
      refine ⟨s, fun _ _ => rfl, ?_⟩
      rw [List.flatMap_nil, valuesFrom_nil]
      exact h
  | cons block blocks ih =>
      obtain ⟨s₁, hrun₁, h₁⟩ := readBlock_holds hfind (hrate block List.mem_cons_self) h
      obtain ⟨s₂, hrun₂, h₂⟩ := ih (fun b hb => hrate b (List.mem_cons_of_mem _ hb)) h₁
      refine ⟨s₂, fun fuel hfuel => ?_, ?_⟩
      · rw [List.flatMap_cons, List.length_append] at hfuel
        rw [List.foldlM_cons, hrun₁ fuel (by omega)]
        exact hrun₂ fuel (by omega)
      · rw [List.flatMap_cons, ← valuesFrom_append]
        exact h₂

end Blocks

def firstEntryFrom (comments : List Bytes) (offset : ℕ) (name : CString) : ℤ :=
  match (comments.drop offset).findIdx? (namedBy name) with
  | some i => ((offset + i : ℕ) : ℤ)
  | none => -1

theorem firstEntryFrom_finds : FindsEntries firstEntryFrom := by
  refine ⟨fun hidx => ?_, fun hidx => ?_⟩
  · rw [firstEntryFrom, hidx]
  · rw [firstEntryFrom, hidx]
    exact (by decide : (-1 : ℤ) < 0)

/-- Two blocks of comments, with a title and another title. -/
def titledBlocks : List MetadataBlock :=
  [.vorbisComment [(CString.ofAscii "Title=a=b").bytes], .other,
    .vorbisComment [(CString.ofAscii "TITLE=c").bytes]]

end ModMp
