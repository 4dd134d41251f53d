import ModMp.Segments

/-!
# The URL of a music query

`setUrl` writes the fields of a query that are set into a URL, each behind its key, and
`getMusicQuery` reads the words behind the query type as keys and values. Texts are lists of 16-bit
units, identifiers and counts are natural numbers, and the type and the host name are words without
a separator.
-/

namespace ModMp
open Segments

abbrev Text := List UInt16

def unit (c : Char) : UInt16 := UInt16.ofNat c.toNat

def text (s : String) : Text := s.toList.map unit

def decimal (n : ℕ) : Text := (Nat.toDigits 10 n).map unit

def slash : UInt16 := unit '/'

/-- A query or a fragment ends the path of a URL. -/
def endsPath (c : UInt16) : Bool := c == unit '?' || c == unit '#'

abbrev ClearText (t : Text) : Prop := Clean endsPath slash t

structure Word where
  letters : Text
  clear : ClearText letters

inductive SortOrder
  | unset
  | ascending
  | descending

def SortOrder.mark : SortOrder → Text
  | .unset => []
  | .ascending => text "+"
  | .descending => text "-"

structure SortColumn where
  order : SortOrder
  friendlyName : Text
  named : friendlyName ≠ []

/-- The field starts as null, the tables set it to columns, and the browser sets it to a string. -/
inductive SortBy
  | null
  | columns (columns : List SortColumn)
  | string (t : Text)

structure QueryParameters where
  type : Word
  numResults : ℕ
  sortBy : SortBy
  artistId : List ℕ
  albumId : List ℕ
  songId : List ℕ
  sourceId : List ℕ
  albumName : Option Text
  artistName : Option Text
  songTitle : Option Text
  sourceType : Option Text
  outputType : Option Text
  objects : List Text

def comma : Text := text ","

/-- The string conversion of an array of identifiers. -/
def idText (ids : List ℕ) : Text := comma.intercalate (ids.map decimal)

def SortColumn.label (c : SortColumn) : Text := c.order.mark ++ c.friendlyName

/-- The loop over the columns. -/
def sortString (columns : List SortColumn) : Text :=
  columns.foldl (fun s c => if s.length = 0 then c.label else s ++ comma ++ c.label) []

/-- The same loop over the letters of a string: they have neither an order nor a name, and the sum
of two undefined values is not a number. -/
def sortStringOfLetters : Text → Text
  | [] => []
  | _ :: letters => text "NaN" ++ letters.flatMap (fun _ => text ",undefinedundefined")

def addField (url : Text) (key : String) (value : Text) : Text :=
  url ++ text "/" ++ text key ++ text "/" ++ value

def addIds (url : Text) (key : String) (ids : List ℕ) : Text :=
  if 0 < ids.length then addField url key (idText ids) else url

def addText (url : Text) (key : String) : Option Text → Text
  | some t => if 0 < t.length then addField url key t else url
  | none => url

def addSortBy (url : Text) : SortBy → Text
  | .null => url
  | .columns columns =>
      if 0 < columns.length then addField url "sort_by" (sortString columns) else url
  | .string t => if 0 < t.length then addField url "sort_by" (sortStringOfLetters t) else url

def addType (url : Text) (key : String) : Option Text → Text
  | some t => addField url key t
  | none => url

def setUrl (hostname : Word) (count : ℕ) (p : QueryParameters) : Text :=
  let upper := count * p.numResults
  let url := text "http://" ++ hostname.letters ++ text "/music/" ++ p.type.letters
  let url := addIds url "album_id" p.albumId
  let url := addIds url "artist_id" p.artistId
  let url := addIds url "song_id" p.songId
  let url := addIds url "source_id" p.sourceId
  let url := addText url "song_title" p.songTitle
  let url := addText url "album_name" p.albumName
  let url := addText url "artist_name" p.artistName
  let url := addSortBy url p.sortBy
  let url := if p.type.letters = text "sources" then addType url "source_type" p.sourceType
    else url
  let url := if p.type.letters = text "transcode" then addType url "output_type" p.outputType
    else url
  if 0 < p.numResults then
    let url := addField url "limit" (decimal p.numResults)
    if 0 < upper then addField url "offset" (decimal upper) else url
  else url

/-- The loop of `get_music_query` over every second word. -/
def readNouns (words : List Text) (nounNum : ℕ) : List (Text × Text) :=
  if h : nounNum + 1 < words.length then
    (words[nounNum], words[nounNum + 1]) :: readNouns words (nounNum + 2)
  else []
termination_by words.length - nounNum

/-- The keys and values that `get_music_query` reads from the words of a path. -/
def getMusicQuery (words : List Text) : List (Text × Text) :=
  if words.length < 4 then [] else readNouns words 2

def pathWords (url : Text) : List Text := (cut endsPath slash url).drop 3

end ModMp
