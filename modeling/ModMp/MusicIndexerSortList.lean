import ModMp.MusicIndexerSortItems
import ModMp.MusicIndexerSteps

/-!
# Sort lists of any length

The copy of a sort list has at most 255 bytes. A longer list loses the items behind the copy, and
the item in which the copy ends is read from what is left of it. So the clause is the translation of
the list exactly when the list fits, or what is left of the last item happens to be translated to
the rest of the list.
-/

namespace ModMp.MusicIndexer
open CLib Delimited

/-- What the copy leaves of an item is an item again, and its term is the text of all terms from the
cut item on. -/
def CutHarmless {lib : Library} {query : DbQuery lib.strnatcasecmp}
    (items : List (SortItem query)) (value : CString) : Prop :=
  ∃ u w v q, items = u ++ w :: v ∧ q <+: w.text ∧ q ≠ [] ∧
    value.bytes.take maxSize = [commaByte].intercalate (u.map SortItem.text ++ [q]) ∧
    sortTerm query (CString.ofBytes q) = some (commaJoined (w.term :: v.map SortItem.term))

section Clause
variable {lib : Library} {query : DbQuery lib.strnatcasecmp} {noun value : CString}
  {items : List (SortItem query)} {s : LoopState}

theorem sortItems_of_pieces {ws : List Bytes}
    (h : pieces commaByte (value.bytes.take maxSize) = ws) :
    sortItems value = ws.map CString.ofBytes := congrArg (List.map CString.ofBytes) h

theorem sortLoop_fitting (hunset : (s.parameters.sqlClauses .orderBy).value = none)
    (hvalue : value.bytes = [commaByte].intercalate (items.map SortItem.text))
    (hle : value.length ≤ maxSize) :
    sortLoop lib query s (sortItems value) =
      s.setOrder (listText (items.map SortItem.term)) := by
  have hpieces : pieces commaByte (value.bytes.take maxSize) = items.map SortItem.text := by
    rw [List.take_of_length_le hle, hvalue, SortItem.pieces_texts]
  have hstart : (s.parameters.sqlClauses .orderBy).value = listText [] := hunset
  rw [sortItems_of_pieces hpieces, sortLoop_of_terms (SortItem.sortTerms_texts items), hstart,
    appendTerms_listText]
  rfl

/-- The sort loop on a list whose copy ends with the piece `q` of an item. -/
theorem sortLoop_cut (hunset : (s.parameters.sqlClauses .orderBy).value = none)
    {u : List (SortItem query)} {q : Bytes} (hq : commaByte ∉ q)
    (htake : value.bytes.take maxSize = [commaByte].intercalate (u.map SortItem.text ++ [q])) :
    sortLoop lib query s (sortItems value) =
      sortLoop lib query (s.setOrder (listText (u.map SortItem.term)))
        (if q = [] then [] else [CString.ofBytes q]) := by
  have hpieces := SortItem.pieces_cut u hq
  rw [← htake] at hpieces
  have hstart : (s.parameters.sqlClauses .orderBy).value = listText [] := hunset
  rw [sortItems_of_pieces hpieces, List.map_append, sortLoop_append,
    sortLoop_of_terms (SortItem.sortTerms_texts u), hstart, appendTerms_listText,
    List.nil_append]
  by_cases hnil : q = []
  · rw [if_pos hnil, if_pos hnil]
    rfl
  · rw [if_neg hnil, if_neg hnil]
    rfl

theorem sortLoop_cut_unknown (hunset : (s.parameters.sqlClauses .orderBy).value = none)
    {u : List (SortItem query)} {q : Bytes} (hq : commaByte ∉ q) (hnil : q ≠ [])
    (htake : value.bytes.take maxSize = [commaByte].intercalate (u.map SortItem.text ++ [q]))
    (hterm : sortTerm query (CString.ofBytes q) = none) :
    sortLoop lib query s (sortItems value) =
      (s.setOrder (listText (u.map SortItem.term))).addError
        (unknownColumn (modifier (CString.ofBytes q)).2) := by
  rw [sortLoop_cut hunset hq htake, if_neg hnil]
  exact sortStep_of_none hterm _

theorem sortLoop_translated_iff (hunset : (s.parameters.sqlClauses .orderBy).value = none)
    (hvalue : value.bytes = [commaByte].intercalate (items.map SortItem.text)) :
    ((sortLoop lib query s (sortItems value)).parameters.sqlClauses .orderBy).value =
          listText (items.map SortItem.term) ∧
        (sortLoop lib query s (sortItems value)).errorMessages = s.errorMessages ↔
      value.length ≤ maxSize ∨ CutHarmless items value := by
  by_cases hle : value.length ≤ maxSize
  · rw [sortLoop_fitting hunset hvalue hle]
    exact iff_of_true ⟨s.setOrder_value _, rfl⟩ (.inl hle)
  · rw [or_iff_right hle]
    constructor
    · rintro ⟨hresult, -⟩
      have hlt : maxSize < ([commaByte].intercalate (items.map SortItem.text)).length := by
        rw [← hvalue]
        exact not_le.mp hle
      obtain ⟨us, ws, vs, q, hitems, hpre, -, htake⟩ := take_intercalate hlt
      obtain ⟨u, wv, rfl, rfl, hwv⟩ := List.map_eq_append_iff.mp hitems
      obtain ⟨w, v, rfl, rfl, rfl⟩ := List.map_eq_cons_iff.mp hwv
      rw [← hvalue] at htake
      have hq : commaByte ∉ q := fun hmem => w.comma_notMem_text (hpre.subset hmem)
      have hne : w.term :: v.map SortItem.term ≠ [] := List.cons_ne_nil _ _
      rw [sortLoop_cut hunset hq htake, List.map_append, List.map_cons] at hresult
      by_cases hnil : q = []
      · rw [if_pos hnil] at hresult
        exact absurd ((s.setOrder_value _).symm.trans hresult) (listText_append_ne _ hne)
      · rw [if_neg hnil, sortLoop, List.foldl_cons, List.foldl_nil] at hresult
        cases hterm : sortTerm query (CString.ofBytes q) with
        | none =>
            rw [sortStep_of_none hterm] at hresult
            exact absurd ((s.setOrder_value _).symm.trans hresult) (listText_append_ne _ hne)
        | some term =>
            rw [sortStep_of_term hterm, LoopState.setOrder_value, s.setOrder_value,
              appendColumn_listText, listText_append_iff _ (by simp) hne] at hresult
            exact ⟨u, w, v, q, rfl, hpre, hnil, htake, hterm.trans (congrArg some hresult)⟩
    · rintro ⟨u, w, v, q, rfl, hpre, hnil, htake, hterm⟩
      have hq : commaByte ∉ q := fun hmem => w.comma_notMem_text (hpre.subset hmem)
      rw [sortLoop_cut hunset hq htake, if_neg hnil, sortLoop, List.foldl_cons, List.foldl_nil,
        sortStep_of_term hterm]
      refine ⟨?_, rfl⟩
      rw [LoopState.setOrder_value, s.setOrder_value, appendColumn_listText, List.map_append,
        List.map_cons, listText_append_iff _ (by simp) (List.cons_ne_nil _ _)]
      rfl

/-- The clause becomes the list of the columns of all items, without an error, exactly when the
list fits into the copy or the cut is harmless. -/
theorem sortBy_translated_iff (items : List (SortItem query))
    (hnoun : query.findColumn noun = none)
    (hclause : findClause lib s.parameters.sqlClauses noun = some .orderBy)
    (hunset : (s.parameters.sqlClauses .orderBy).value = none)
    (hvalue : value.bytes = [commaByte].intercalate (items.map SortItem.text)) :
    ∃ s', nounStep lib query noun value s = .ok (.next s') ∧
      ((s'.parameters.sqlClauses .orderBy).value = listText (items.map SortItem.term) ∧
          s'.errorMessages = s.errorMessages ↔
        value.length ≤ maxSize ∨ CutHarmless items value) :=
  ⟨_, nounStep_sort hnoun hclause, sortLoop_translated_iff hunset hvalue⟩

end Clause

def titleItem (direction : Direction) : @SortItem songsLibrary songsQuery where
  direction := direction
  name := CString.ofAscii "song_title"
  column := songColumn "name" "song_title" .varchar
  found := rfl
  comma_free := by decide
  unmarked _ := by decide

def startState : LoopState where
  parameters := dbQueryParametersInit
  errorMessages := ⟨0, fun _ => whereError.record⟩
  queryNouns := []

def sortBy : CString := CString.ofAscii "sort_by"

theorem sortBy_titles : ∃ s', nounStep songsLibrary songsQuery sortBy
      (SortItem.sortList [titleItem .ascending, titleItem .descending]) startState =
        .ok (.next s') ∧
    (s'.parameters.sqlClauses .orderBy).value =
      some (CString.ofAscii "Songs.name ASC,Songs.name DESC") := by
  have hbytes := SortItem.sortList_bytes [titleItem .ascending, titleItem .descending]
  obtain ⟨s', hstep, hiff⟩ := @sortBy_translated_iff songsLibrary songsQuery sortBy _ startState
    [titleItem .ascending, titleItem .descending] rfl rfl rfl hbytes
  exact ⟨s', hstep, (hiff.mpr (.inl (by decide))).1⟩

set_option maxRecDepth 4000 in
/-- Of 24 titles the copy keeps 23 and the first two letters of the last one. -/
theorem sortBy_long_list : ∃ s', nounStep songsLibrary songsQuery sortBy
      (SortItem.sortList (List.replicate 24 (titleItem .unset))) startState = .ok (.next s') ∧
    (s'.parameters.sqlClauses .orderBy).value ≠
      listText ((List.replicate 24 (titleItem .unset)).map SortItem.term) ∧
    s'.errorMessages ≠ startState.errorMessages := by
  have hbytes := SortItem.sortList_bytes (List.replicate 24 (titleItem .unset))
  have htake : (SortItem.sortList (List.replicate 24 (titleItem .unset))).bytes.take maxSize =
      [commaByte].intercalate ((List.replicate 23 (titleItem .unset)).map SortItem.text ++
        [[0x73, 0x6F]]) := (congrArg (List.take maxSize) hbytes).trans (by decide)
  have hcut : @sortTerm songsLibrary songsQuery (CString.ofBytes [0x73, 0x6F]) = none := by decide
  refine ⟨_, nounStep_sort rfl rfl, ?_⟩
  rw [sortLoop_cut_unknown rfl (by decide) (List.cons_ne_nil _ _) htake hcut]
  constructor
  · exact listText_append_ne (List.replicate 23 (titleItem .unset).term)
      (List.cons_ne_nil (titleItem .unset).term [])
  · intro herrors
    have hcount := (errorMessagesAdd_of_not_full (t := startState.errorMessages) (by decide)
      (unknownColumn (CString.ofBytes [0x73, 0x6F]))).2.1
    exact absurd ((congrArg ErrorMessages.numErrors herrors).symm.trans hcount) (by decide)

end ModMp.MusicIndexer
