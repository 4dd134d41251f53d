import ModMp.MusicFile

/-!
# The tags of a FLAC file

`read_flac_level1` walks over the metadata blocks. In a block of comments it looks for nine fields,
one after the other, and `find_vorbis_comment_entry` sets a field that is NULL to the value of the
first entry with its name. The search of the library is a parameter, and the loop around it has
fuel. An entry is its bytes, a block is too short for an `int` to overflow, and of the other types
of blocks nothing is read. A file that cannot be opened has no blocks.
-/

namespace ModMp
open CLib StringPool MusicFile

/-- What ends a reader of tags before it returns, or the end of the fuel. -/
inductive TagFault
  | fuel
  | entry
  | null
  | divideByZero
  deriving DecidableEq

inductive MetadataBlock
  | streaminfo (totalSamples sampleRate : ℕ)
  | vorbisComment (comments : List Bytes)
  | other

def equalsByte : UInt8 := 0x3D

/-- The names and the fields that `read_flac_level1` asks for. -/
def flacFields : List (CString × TextField) :=
  [(CString.ofAscii "TITLE", .title), (CString.ofAscii "ARTIST", .artist),
    (CString.ofAscii "ALBUM", .album), (CString.ofAscii "TRACKNUMBER", .trackNo),
    (CString.ofAscii "DISCNUMBER", .discNo),
    (CString.ofAscii "MUSICBRAINZ_ALBUMID", .mbReleaseId),
    (CString.ofAscii "MUSICBRAINZ_ALBUMARTISTID", .mbAlbumartistId),
    (CString.ofAscii "MUSICBRAINZ_ARTISTID", .mbArtistId),
    (CString.ofAscii "MUSICBRAINZ_TRACKID", .mbRecoridingId)]

/-- The body of the loop of `find_vorbis_comment_entry`. -/
def copyEntry (field : TextField) (commentEntry : Bytes) (s : Pool × MusicFile) :
    Pool × MusicFile :=
  match commentEntry.idxOf? equalsByte with
  | none => s
  | some i =>
      let commentValue := i + 1
      if s.2.text field = none then
        let commentLength := commentEntry.length - commentValue
        let (pool, p) := pstrmemdup s.1 ((commentEntry.drop commentValue).take commentLength)
        (pool, s.2.setText field p)
      else s

section Reader

variable (findEntryFrom : List Bytes → ℕ → CString → ℤ)

def findVorbisCommentEntry (comments : List Bytes) (entry : CString) (field : TextField) :
    ℕ → ℕ → Pool × MusicFile → Except TagFault (Pool × MusicFile)
  | 0, _, _ => .error .fuel
  | fuel + 1, offset, s =>
      let found := findEntryFrom comments offset entry
      if 0 ≤ found then
        match comments[found.toNat]? with
        | none => .error .entry
        | some commentEntry =>
            findVorbisCommentEntry comments entry field fuel (found.toNat + 1)
              (copyEntry field commentEntry s)
      else .ok s

/-- A round of the loop over the blocks. -/
def readBlock (fuel : ℕ) (s : Pool × MusicFile) :
    MetadataBlock → Except TagFault (Pool × MusicFile)
  | .vorbisComment comments =>
      flacFields.foldlM (fun s e =>
        findVorbisCommentEntry findEntryFrom comments e.1 e.2 fuel 0 s) s
  | .streaminfo totalSamples sampleRate =>
      if sampleRate = 0 then .error .divideByZero
      else .ok (s.1, { s.2 with length := toInt ((totalSamples / sampleRate : ℕ) : ℤ) })
  | .other => .ok s

/-- A file that can be opened has a first block, and the loop tests its condition at the end. -/
def readFlacLevel1 (fuel : ℕ) (iter : Option (MetadataBlock × List MetadataBlock))
    (s : Pool × MusicFile) : Except TagFault (ℤ × Pool × MusicFile) :=
  match iter with
  | none => .ok (1, s)
  | some (block, blocks) =>
      ((block :: blocks).foldlM (readBlock findEntryFrom fuel) s).map (fun s =>
        (if s.2.text .title = none then -1 else 0, s))

end Reader

def lowerByte (b : UInt8) : UInt8 := if 0x41 ≤ b ∧ b ≤ 0x5A then b + 0x20 else b

/-- An entry of the form name=value, for a name in any case. -/
def namedBy (name : CString) (commentEntry : Bytes) : Bool :=
  equalsByte ∈ commentEntry ∧
    (commentEntry.takeWhile (· != equalsByte)).map lowerByte = name.bytes.map lowerByte

/-- The search of the library returns the first index from the offset on with such an entry, or a
negative number. -/
structure FindsEntries (findEntryFrom : List Bytes → ℕ → CString → ℤ) : Prop where
  found : ∀ {comments offset name i}, (comments.drop offset).findIdx? (namedBy name) = some i →
    findEntryFrom comments offset name = ((offset + i : ℕ) : ℤ)
  missing : ∀ {comments offset name}, (comments.drop offset).findIdx? (namedBy name) = none →
    findEntryFrom comments offset name < 0

def fieldValue (commentEntry : Bytes) : Bytes := (commentEntry.dropWhile (· != equalsByte)).tail

/-- The value of the first entry with a name. -/
def firstValue (name : CString) (comments : List Bytes) : Option Bytes :=
  (comments.find? (namedBy name)).map fieldValue

end ModMp
