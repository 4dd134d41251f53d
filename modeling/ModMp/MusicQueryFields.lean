import ModMp.MusicQueryUrl

/-!
# The fields in the URL of a music query

The fields of a query that are set, in the order of `setUrl`. The URL is its head and these fields;
only a `sort_by` field that is a string is written differently from what it says.
-/

namespace ModMp
open Segments

def idField (key : String) (ids : List ℕ) : List (Text × Text) :=
  if 0 < ids.length then [(text key, idText ids)] else []

def textField (key : String) : Option Text → List (Text × Text)
  | some t => if 0 < t.length then [(text key, t)] else []
  | none => []

def typeField (key : String) : Option Text → List (Text × Text)
  | some t => [(text key, t)]
  | none => []

def fieldsBefore (p : QueryParameters) : List (Text × Text) :=
  idField "album_id" p.albumId ++ idField "artist_id" p.artistId ++ idField "song_id" p.songId ++
    idField "source_id" p.sourceId ++ textField "song_title" p.songTitle ++
    textField "album_name" p.albumName ++ textField "artist_name" p.artistName

def typeFields (p : QueryParameters) : List (Text × Text) :=
  (if p.type.letters = text "sources" then typeField "source_type" p.sourceType else []) ++
    (if p.type.letters = text "transcode" then typeField "output_type" p.outputType else [])

def limitFields (count : ℕ) (p : QueryParameters) : List (Text × Text) :=
  (if 0 < p.numResults then [(text "limit", decimal p.numResults)] else []) ++
    (if 0 < p.numResults ∧ 0 < count * p.numResults then
      [(text "offset", decimal (count * p.numResults))] else [])

/-- The fields that are set, in the order of `setUrl`, with the given `sort_by` field. -/
def setFields (sortField : List (Text × Text)) (count : ℕ) (p : QueryParameters) :
    List (Text × Text) := fieldsBefore p ++ sortField ++ typeFields p ++ limitFields count p

/-- The text of the `sort_by` field: the labels of the columns, or the string itself. -/
def SortBy.field : SortBy → List (Text × Text)
  | .null => []
  | .columns cols =>
      if 0 < cols.length then
        [(text "sort_by", comma.intercalate (cols.map SortColumn.label))] else []
  | .string t => if 0 < t.length then [(text "sort_by", t)] else []

/-- The pairs that the client means. -/
def meantFields (count : ℕ) (p : QueryParameters) : List (Text × Text) :=
  setFields p.sortBy.field count p

section Url
variable (url : Text) (key : String)

/-- The text of a list of fields, each key and each value behind a slash. -/
def fieldsText (l : List (Text × Text)) : Text := join slash (unpair l)

theorem fieldsText_append (l l' : List (Text × Text)) :
    fieldsText (l ++ l') = fieldsText l ++ fieldsText l' := by
  rw [fieldsText, unpair, List.flatMap_append, join, List.flatMap_append]
  rfl

theorem addField_eq (value : Text) :
    addField url key value = url ++ fieldsText [(text key, value)] := by
  simp [addField, fieldsText, join, unpair, text, slash]

theorem addIds_eq (ids : List ℕ) : addIds url key ids = url ++ fieldsText (idField key ids) := by
  unfold addIds idField
  split_ifs
  · exact addField_eq url key _
  · exact (List.append_nil url).symm

theorem addText_eq (t : Option Text) :
    addText url key t = url ++ fieldsText (textField key t) := by
  cases t with
  | none => exact (List.append_nil url).symm
  | some t =>
      unfold addText textField
      dsimp only
      split_ifs
      · exact addField_eq url key _
      · exact (List.append_nil url).symm

theorem addType_eq (t : Option Text) :
    addType url key t = url ++ fieldsText (typeField key t) := by
  cases t with
  | none => exact (List.append_nil url).symm
  | some t => exact addField_eq url key t

/-- The `sort_by` field as `setUrl` writes it. -/
def SortBy.written : SortBy → List (Text × Text)
  | .string t => if 0 < t.length then [(text "sort_by", sortStringOfLetters t)] else []
  | s => s.field

theorem foldl_label_eq (s : Text) (hs : s ≠ []) (cols : List SortColumn) :
    cols.foldl (fun s c => if s.length = 0 then c.label else s ++ comma ++ c.label) s =
      s ++ cols.flatMap (fun c => comma ++ c.label) := by
  induction cols generalizing s with
  | nil => simp
  | cons c cols ih =>
      have hlen : s.length ≠ 0 := fun h => hs (List.length_eq_zero_iff.mp h)
      have hne : s ++ comma ++ c.label ≠ [] := by simp [hs]
      rw [List.foldl_cons, if_neg hlen, ih _ hne, List.flatMap_cons]
      simp only [List.append_assoc]

theorem sortString_eq (cols : List SortColumn) :
    sortString cols = comma.intercalate (cols.map SortColumn.label) := by
  cases cols with
  | nil => rfl
  | cons c cols =>
      have hne : c.label ≠ [] := by simp [SortColumn.label, c.named]
      have hfirst : sortString (c :: cols) =
          cols.foldl (fun s c => if s.length = 0 then c.label else s ++ comma ++ c.label) c.label :=
        rfl
      rw [hfirst, foldl_label_eq _ hne, List.map_cons, intercalate_cons, List.flatMap_map]

theorem addSortBy_eq (s : SortBy) : addSortBy url s = url ++ fieldsText s.written := by
  cases s with
  | null => exact (List.append_nil url).symm
  | columns cols =>
      unfold addSortBy SortBy.written SortBy.field
      dsimp only
      rw [← sortString_eq]
      split_ifs
      · exact addField_eq url "sort_by" _
      · exact (List.append_nil url).symm
  | string t =>
      unfold addSortBy SortBy.written
      dsimp only
      split_ifs
      · exact addField_eq url "sort_by" _
      · exact (List.append_nil url).symm

theorem addIf_eq {P : Prop} [Decidable P] {url' : Text} {l : List (Text × Text)}
    (h : url' = url ++ fieldsText l) :
    (if P then url' else url) = url ++ fieldsText (if P then l else []) := by
  split_ifs
  · exact h
  · exact (List.append_nil url).symm

end Url

def urlHead (hostname : Word) (p : QueryParameters) : Text :=
  text "http://" ++ hostname.letters ++ text "/music/" ++ p.type.letters

theorem addLimit_eq (url : Text) (count : ℕ) (p : QueryParameters) :
    (if 0 < p.numResults then
      if 0 < count * p.numResults then
        addField (addField url "limit" (decimal p.numResults)) "offset"
          (decimal (count * p.numResults))
      else addField url "limit" (decimal p.numResults)
    else url) = url ++ fieldsText (limitFields count p) := by
  unfold limitFields
  by_cases hlimit : 0 < p.numResults
  · by_cases hoffset : 0 < count * p.numResults
    · rw [if_pos hlimit, if_pos hoffset, if_pos hlimit, if_pos ⟨hlimit, hoffset⟩, addField_eq,
        addField_eq, fieldsText_append, List.append_assoc]
    · rw [if_pos hlimit, if_neg hoffset, if_pos hlimit, if_neg (fun h => hoffset h.2),
        addField_eq, List.append_nil]
  · rw [if_neg hlimit, if_neg hlimit, if_neg (fun h => hlimit h.1), List.append_nil]
    exact (List.append_nil url).symm

theorem setUrl_eq (hostname : Word) (count : ℕ) (p : QueryParameters) :
    setUrl hostname count p =
      urlHead hostname p ++ fieldsText (setFields p.sortBy.written count p) := by
  unfold setUrl setFields fieldsBefore typeFields
  dsimp only
  rw [addLimit_eq, addIf_eq _ (addType_eq _ _ _), addIf_eq _ (addType_eq _ _ _)]
  simp only [addIds_eq, addText_eq, addSortBy_eq, fieldsText_append, List.append_assoc, urlHead]

end ModMp
