import ModMp.MusicFile

/-!
# The tags of an MP3 file

`find_id3_tag_id` copies the first text frame with each of the requested ids, one id after the
other, and `read_id3` then cuts the numbers of the track and the disc at their first slash, in
place: the total is the rest of the same block. A frame id is four bytes, compared as a whole. Every
text frame has a text.
-/

namespace ModMp
open CLib StringPool MusicFile

abbrev FrameId := List.Vector UInt8 4

def frameId (a b c d : Char) : FrameId := ⟨[a.toUInt8, b.toUInt8, c.toUInt8, d.toUInt8], rfl⟩

/-- An entry of `id3v2->text`. -/
structure Id3v2Text where
  id : FrameId
  text : CString

/-- `id3v2_id_t`, with the field that `texts` points to. -/
structure Id3v2Id where
  id : FrameId
  texts : TextField

/-- The ids that `read_id3` asks for. -/
def tagsRequest : List Id3v2Id :=
  [⟨frameId 'T' 'I' 'T' '2', .title⟩, ⟨frameId 'T' 'P' 'E' '1', .artist⟩,
    ⟨frameId 'T' 'A' 'L' 'B', .album⟩, ⟨frameId 'T' 'R' 'C' 'K', .trackNo⟩,
    ⟨frameId 'T' 'P' 'O' 'S', .discNo⟩, ⟨frameId 'T' 'Y' 'E' 'R', .year⟩,
    ⟨frameId 'T' 'D' 'A' 'T', .date⟩, ⟨frameId 'T' 'D' 'R' 'C', .date⟩]

/-- The inner loop of `find_id3_tag_id`. -/
def findText (id : Id3v2Id) (s : Pool × MusicFile) : List Id3v2Text → Pool × MusicFile
  | [] => s
  | text :: texts =>
      if id.id = text.id then
        let (pool, p) := pstrdup s.1 text.text
        (pool, s.2.setText id.texts p)
      else findText id s texts

def findId3TagId (id3v2 : List Id3v2Text) (ids : List Id3v2Id) (s : Pool × MusicFile) :
    Pool × MusicFile := ids.foldl (fun s id => findText id s id3v2) s

def slashByte : UInt8 := 0x2F

/-- A loop over a number from `i` on, with the total that it finds. -/
def splitLoop (pool : Pool) (number : Pointer) (i : ℕ) : Option (Pool × Option Pointer) :=
  match _hlength : strlen pool number with
  | none => none
  | some length =>
      if i < length then
        match load pool (number.add i) with
        | none => none
        | some c =>
            if c = slashByte then
              some (store pool (number.add i) 0, some (number.add (i + 1)))
            else splitLoop pool number (i + 1)
      else some (pool, none)
termination_by (strlen pool number).getD 0 - i
decreasing_by
  rw [_hlength, Option.getD_some]
  omega

def MusicFile.setTotal (song : MusicFile) (total : TextField) : Option Pointer → MusicFile
  | some p => song.setText total p
  | none => song

def splitNumber (number total : TextField) (s : Pool × MusicFile) : Option (Pool × MusicFile) :=
  match s.2.text number with
  | none => some s
  | some p => (splitLoop s.1 p 0).map (fun r => (r.1, s.2.setTotal total r.2))

/-- The part of `read_id3` behind a successful `mpg123_id3`. -/
def readTags (id3v2 : List Id3v2Text) (s : Pool × MusicFile) : Option (Pool × MusicFile) :=
  (splitNumber .trackNo .totalTracks (findId3TagId id3v2 tagsRequest s)).bind
    (splitNumber .discNo .discsInSet)

/-- The text of the first frame with an id. -/
def firstText (id3v2 : List Id3v2Text) (id : FrameId) : Option CString :=
  (id3v2.find? (fun text => id = text.id)).map Id3v2Text.text

def requestContent (id3v2 : List Id3v2Text) (content : TextField → Option Bytes) (id : Id3v2Id) :
    TextField → Option Bytes :=
  Function.update content id.texts
    (((firstText id3v2 id.id).map CString.bytes).or (content id.texts))

theorem findText_holds {id : Id3v2Id} {s : Pool × MusicFile} {content : TextField → Option Bytes}
    (h : Holds s.1 s.2 content) (id3v2 : List Id3v2Text) :
    Holds (findText id s id3v2).1 (findText id s id3v2).2 (requestContent id3v2 content id) := by
  induction id3v2 with
  | nil =>
      rw [requestContent, firstText, List.find?_nil, Option.map_none, Option.map_none,
        Option.none_or, Function.update_eq_self]
      exact h
  | cons text texts ih =>
      by_cases hid : id.id = text.id
      · rw [findText, if_pos hid, requestContent, firstText,
          List.find?_cons_of_pos (by simpa using hid)]
        exact h.setText id.texts text.text.bytes
      · rw [findText, if_neg hid, requestContent, firstText,
          List.find?_cons_of_neg (by simpa using hid)]
        exact ih

theorem findId3TagId_holds {s : Pool × MusicFile} {content : TextField → Option Bytes}
    (h : Holds s.1 s.2 content) (id3v2 : List Id3v2Text) (ids : List Id3v2Id) :
    Holds (findId3TagId id3v2 ids s).1 (findId3TagId id3v2 ids s).2
      (ids.foldl (requestContent id3v2) content) := by
  induction ids generalizing s content with
  | nil => exact h
  | cons id ids ih => exact ih (findText_holds h id3v2)

end ModMp
