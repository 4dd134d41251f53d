import ModMp.MusicIndexerSortList
import ModMp.PlaylistRows
import ModMp.UrlRequests

/-!
# What the server makes of the requests of a playlist

A request for the songs of a playlist is sorted by the sort list, and the server reads a column to
sort by from each entry. A request of a search has a text, and its condition needs a new text, for
which the parameters have no pool.
-/

namespace ModMp
open Runs Segments Delimited MusicIndexer CLib

variable {ρ κ : Type}

section Columns

def Column.head (column : Column) : Text × Bool := (column.friendlyName, column.search)

theorem Column.head_sortClick (column : Column) (order : SortOrder) :
    (column.sortClick order).head = column.head := by
  unfold sortClick
  split_ifs <;> rfl

theorem Table.columns_setSelected (t : Table ρ) (index : Option ℕ) (selected : Bool) :
    (t.setSelected index selected).columns = t.columns := by
  cases index <;> rfl

theorem Table.columns_deselectRow (t : Table ρ) (index : Option ℕ) :
    (t.deselectRow index).2.columns = t.columns := by
  unfold deselectRow
  cases t.rowAt index with
  | none => rfl
  | some row =>
      dsimp only
      split_ifs
      · exact columns_setSelected t index false
      · rfl

theorem Table.columns_selectRow {t t' : Table ρ} {index : Option ℕ} {result : ℤ}
    (h : t.selectRow index = some (result, t')) : t'.columns = t.columns := by
  obtain ⟨row, -, hrow⟩ := Option.map_eq_some_iff.mp h
  split_ifs at hrow
  · cases hrow
    exact columns_deselectRow t index
  · cases hrow
    exact columns_setSelected t index true

theorem PlayerUi.changeSong_columns {σ : Type} [DecidableEq κ] (fields : SongFields σ κ)
    (s : PlayerUi σ ρ) (song : Option σ) :
    (s.changeSong fields song).playlist.songsTable.columns = s.playlist.songsTable.columns := by
  have hdeselect : (s.deselectSong fields).playlist.songsTable.columns =
      s.playlist.songsTable.columns := by
    unfold deselectSong
    cases songAt s.playlist.songs s.playingIndex with
    | none => rfl
    | some current => exact Table.columns_deselectRow _ _
  cases song with
  | none => rfl
  | some song =>
      rw [changeSong]
      split_ifs
      · rfl
      · dsimp only
        split
        · next result selected hselect => exact (Table.columns_selectRow hselect).trans hdeselect
        · exact hdeselect

theorem PlayedPlaylist.changeSong_columns [DecidableEq κ] (songId : ρ → κ)
    (song : Option (DataElem ρ)) (p : PlayedPlaylist ρ) (playingIndex : Option ℤ) :
    (p.changeSong songId song playingIndex).1.songsTable.columns = p.songsTable.columns := by
  unfold changeSong
  cases p.songs.read p.searching playingIndex with
  | none => rfl
  | some songs => exact PlayerUi.changeSong_columns (songFields songId) _ song

theorem receive_columns (shown : Bool) (responses : List (Option (List ρ)))
    (s : Table ρ × Option (List (DataElem ρ))) :
    (responses.foldl (receive shown) s).1.columns = s.1.columns := by
  induction responses generalizing s with
  | nil => rfl
  | cons response responses ih =>
      rw [List.foldl_cons, ih]
      cases response with
      | none => rfl
      | some rows =>
          rw [receive]
          split_ifs
          · exact (s.1.addRows_spec _).2.2.1
          · rfl

end Columns

namespace PlaylistUi

/-- The columns, the sort list and the queries stay as they are but for the results, and no search
begins. -/
structure SameQueries (s s' : PlaylistUi ρ) : Prop where
  columns : s'.songsTable.columns = s.songsTable.columns
  sort : s'.sort = s.sort
  query : s'.query.parameters = s.query.parameters
  shares : s'.query.sharesSort = s.query.sharesSort
  searchQuery : s'.searchQuery.parameters = s.searchQuery.parameters
  searching : s'.searchResults.isSome = true → s.searchResults.isSome = true

variable {s t : PlaylistUi ρ}

namespace SameQueries

theorem refl (s : PlaylistUi ρ) : SameQueries s s := ⟨rfl, rfl, rfl, rfl, rfl, id⟩

theorem onPlayed (h : SameQueries s t)
    {f : PlayedPlaylist ρ → Option ℤ → PlayedPlaylist ρ × Option ℤ}
    (hf : ∀ p index, (f p index).1.songsTable.columns = p.songsTable.columns) :
    SameQueries s (t.onPlayed f) := by
  have hcolumns := hf t.played t.playingIndex
  unfold PlaylistUi.onPlayed
  unfold played at hcolumns ⊢
  cases hother : t.otherPlaylist with
  | some other => exact ⟨h.columns, h.sort, h.query, h.shares, h.searchQuery, h.searching⟩
  | none =>
      rw [hother] at hcolumns
      exact ⟨hcolumns.trans h.columns, h.sort, h.query, h.shares, h.searchQuery, h.searching⟩

variable [DecidableEq κ]

theorem changeSong (h : SameQueries s t) (songId : ρ → κ) (song : Option (DataElem ρ)) :
    SameQueries s (t.changeSong songId song) :=
  h.onPlayed (PlayedPlaylist.changeSong_columns songId song)

theorem changeCurrent (h : SameQueries s t) (songId : ρ → κ) :
    SameQueries s (t.changeCurrent songId) := by
  unfold PlaylistUi.changeCurrent
  cases t.songs.entry t.playingIndex with
  | none => exact h
  | some song => exact h.changeSong songId song

theorem completeQuery (h : SameQueries s t) (songId : ρ → κ) :
    SameQueries s (t.completeQuery songId) := by
  have hsongs : ∀ songs songsSort index results, SameQueries s { t with
      songs := songs
      songsSort := songsSort
      playingIndex := index
      query := { t.query with results := results } } := fun _ _ _ _ =>
    ⟨h.columns, h.sort, h.query, h.shares, h.searchQuery, h.searching⟩
  unfold PlaylistUi.completeQuery changePlaylistSongs
  split
  · exact hsongs _ _ t.playingIndex t.query.results
  · dsimp only
    split_ifs
    · exact (hsongs _ _ _ t.query.results).changeCurrent songId
    · exact hsongs _ _ _ t.query.results
    · split
      · exact (hsongs _ t.songsSort t.playingIndex _).changeCurrent songId
      · exact h
  · exact h.changeCurrent songId

theorem loadQuery (h : SameQueries s t) (songId : ρ → κ)
    (server : QueryParameters → List (Option (List ρ))) :
    SameQueries s (t.loadQuery songId server) := by
  unfold PlaylistUi.loadQuery
  apply completeQuery
  exact ⟨(receive_columns _ _ _).trans h.columns, h.sort, h.query, h.shares, h.searchQuery,
    h.searching⟩

omit [DecidableEq κ] in
theorem loadSearchQuery (h : SameQueries s t) (hsearching : s.searchResults.isSome = true)
    (server : QueryParameters → List (Option (List ρ))) :
    SameQueries s (t.loadSearchQuery server) :=
  ⟨(receive_columns _ _ _).trans h.columns, h.sort, h.query, h.shares, h.searchQuery,
    fun _ => hsearching⟩

theorem songClick (songId : ρ → κ) (s : PlaylistUi ρ) (row : TableRow ρ) (found : Bool) :
    SameQueries s (s.songClick songId row found) := by
  have hplays : SameQueries s { s with otherPlaylist := none } := ⟨rfl, rfl, rfl, rfl, rfl, id⟩
  unfold PlaylistUi.songClick
  dsimp only
  split
  · split
    · split_ifs
      · exact hplays.changeSong songId _
      · exact hplays
    · exact hplays
  · exact hplays

theorem shuffle (songId : ρ → κ) (random : ℕ → ℕ) (s : PlaylistUi ρ) :
    SameQueries s (s.onPlayed (PlayedPlaylist.shuffle songId random)) :=
  (refl s).onPlayed (fun _ _ => rfl)

end SameQueries

/-- The table has the columns of songs, and the sort list agrees with them. -/
structure Sorts (parameters : QueryParameters) (s : PlaylistUi ρ) : Prop where
  heads : s.songsTable.columns.map Column.head = songColumns.map Column.head
  sound : TableSort.Sound ⟨s.songsTable.columns, s.sort⟩
  parameters : s.query.parameters = parameters

theorem Sorts.same {parameters : QueryParameters} (h : Sorts parameters s)
    (hsame : SameQueries s t) : Sorts parameters t := by
  refine ⟨?_, ?_, hsame.query.trans h.parameters⟩
  · rw [hsame.columns]
    exact h.heads
  · rw [hsame.columns, hsame.sort]
    exact h.sound

variable [DecidableEq κ] {songId : ρ → κ} {server : QueryParameters → List (Option (List ρ))}

theorem Sorts.loadQuery {parameters : QueryParameters} (h : Sorts parameters s) :
    Sorts parameters (s.loadQuery songId server) :=
  h.same ((SameQueries.refl s).loadQuery songId server)

omit [DecidableEq κ] in
theorem Sorts.loadSearchQuery {parameters : QueryParameters} (h : Sorts parameters s)
    (hsearching : s.searchResults.isSome = true) :
    Sorts parameters (s.loadSearchQuery server) :=
  h.same ((SameQueries.refl s).loadSearchQuery hsearching server)

theorem Sorts.click {parameters : QueryParameters} (h : Sorts parameters s) {click : ArrowClick}
    {r : TableSort} (hr : TableSort.click ⟨s.songsTable.columns, s.sort⟩ click = some r) :
    r.columns.map Column.head = songColumns.map Column.head ∧
      TableSort.Sound ⟨r.columns, r.sort⟩ := by
  refine ⟨?_, (TableSort.click_sound h.sound hr).1⟩
  obtain ⟨column, hget, rfl⟩ := Option.map_eq_some_iff.mp hr
  rw [map_set_eq hget (column.head_sortClick click.arrow.order)]
  exact h.heads

theorem Sorts.next {parameters : QueryParameters} {a : PlaylistAction ρ} (h : Sorts parameters s)
    (hs : s.next songId server a = some t) : Sorts parameters t := by
  cases a with
  | sort click =>
      obtain ⟨r, hr, rfl⟩ := Option.map_eq_some_iff.mp hs
      obtain ⟨hheads, hsound⟩ := h.click hr
      dsimp only
      split_ifs with hsearch
      · exact Sorts.loadQuery ⟨hheads, hsound, h.parameters⟩
      · refine Sorts.loadSearchQuery ⟨hheads, hsound, h.parameters⟩ ?_
        exact Option.isSome_iff_ne_none.mpr (mt Option.isNone_iff_eq_none.mpr hsearch)
  | search column value =>
      obtain ⟨col, -, hs⟩ := Option.bind_eq_some_iff.mp hs
      obtain ⟨-, hs⟩ := Option.ite_none_right_eq_some.mp hs
      cases hs
      unfold searchBoxChange
      split_ifs
      · exact Sorts.loadSearchQuery ⟨h.heads, h.sound, h.parameters⟩ rfl
      · exact Sorts.loadQuery ⟨h.heads, h.sound, h.parameters⟩
      · exact ⟨h.heads, h.sound, h.parameters⟩
  | play row found =>
      obtain ⟨row, -, rfl⟩ := Option.map_eq_some_iff.mp hs
      exact h.same (SameQueries.songClick songId s row found)
  | playerChange song =>
      cases hs
      exact h.same ((SameQueries.refl s).changeSong songId _)
  | shuffle random =>
      cases hs
      exact h.same (SameQueries.shuffle songId random s)

theorem create_sorts (parameters : QueryParameters) (playingIndex : Option ℤ)
    (otherPlaylist : Option (PlayedPlaylist ρ)) :
    Sorts parameters (create songId server parameters playingIndex otherPlaylist) :=
  Sorts.loadQuery ⟨rfl, TableSort.create_sound, rfl⟩

/-- The songs are sorted: an arrow is clicked, and there is no search. -/
def SortsSongs (s : PlaylistUi ρ) (a : PlaylistAction ρ) : Prop :=
  s.searchResults = none ∧ ∃ click, a = .sort click

/-- The query has the sort list of the playlist once the songs have been sorted. -/
theorem sharesSort_next {a : PlaylistAction ρ} (hs : s.next songId server a = some t) :
    t.query.sharesSort = true ↔ s.query.sharesSort = true ∨ s.SortsSongs a := by
  have hkept : t.query.sharesSort = s.query.sharesSort → (∀ click, a ≠ .sort click) →
      (t.query.sharesSort = true ↔ s.query.sharesSort = true ∨ s.SortsSongs a) := by
    intro hsame ha
    have hnot : ¬ s.SortsSongs a := by
      rintro ⟨-, click, rfl⟩
      exact ha click rfl
    rw [hsame, or_iff_left hnot]
  cases a with
  | sort click =>
      obtain ⟨r, -, rfl⟩ := Option.map_eq_some_iff.mp hs
      dsimp only
      split_ifs with hsearch
      · refine iff_of_true ((SameQueries.refl _).loadQuery songId server).shares (.inr ?_)
        exact ⟨Option.isNone_iff_eq_none.mp hsearch, click, rfl⟩
      · have hnot : ¬ s.SortsSongs (.sort click) :=
          fun h => hsearch (Option.isNone_iff_eq_none.mpr h.1)
        exact (or_iff_left hnot).symm
  | search column value =>
      obtain ⟨col, -, hs⟩ := Option.bind_eq_some_iff.mp hs
      obtain ⟨-, hs⟩ := Option.ite_none_right_eq_some.mp hs
      cases hs
      refine hkept ?_ (fun _ => by rintro ⟨⟩)
      unfold searchBoxChange
      split_ifs
      · rfl
      · exact ((SameQueries.refl _).loadQuery songId server).shares
      · rfl
  | play row found =>
      obtain ⟨row, -, rfl⟩ := Option.map_eq_some_iff.mp hs
      exact hkept (SameQueries.songClick songId s row found).shares (fun _ => by rintro ⟨⟩)
  | playerChange song =>
      cases hs
      refine hkept ?_ (fun _ => by rintro ⟨⟩)
      exact ((SameQueries.refl s).changeSong songId _).shares
  | shuffle random =>
      cases hs
      exact hkept (SameQueries.shuffle songId random s).shares (fun _ => by rintro ⟨⟩)

end PlaylistUi

def songNames : List Text := songColumns.map (fun column => column.friendlyName)

structure SongSort (sort : List SortColumn) : Prop where
  nodup : (names sort).Nodup
  mem : ∀ c ∈ sort, c.friendlyName ∈ songNames

theorem SongSort.defaultSort : SongSort defaultSort := ⟨by decide, by decide⟩

theorem PlaylistUi.Sorts.songSort {parameters : QueryParameters} {s : PlaylistUi ρ}
    (h : s.Sorts parameters) : SongSort s.sort := by
  refine ⟨h.sound.agrees.nodup, fun c hc => ?_⟩
  obtain ⟨-, column, hcolumn, rfl⟩ := (h.sound.agrees.mem c).mp hc
  have hhead : column.head ∈ songColumns.map Column.head := by
    rw [← h.heads]
    exact List.mem_map_of_mem hcolumn
  obtain ⟨other, hother, heq⟩ := List.mem_map.mp hhead
  exact List.mem_map.mpr ⟨other, hother, congrArg Prod.fst heq⟩

def SortOrder.direction : SortOrder → Direction
  | .unset => .unset
  | .ascending => .ascending
  | .descending => .descending

def orderTerm (order : Text → ColumnTable) (c : SortColumn) : CString :=
  columnText (order c.friendlyName) c.order.direction.suffix

theorem label_songNames (o : SortOrder) : ∀ name ∈ songNames,
    (o.mark ++ name).length ≤ 13 ∧ ClearText (o.mark ++ name) ∧
      (o.mark ++ name).map UInt16.toUInt8 =
        o.direction.mark ++ (textString name).bytes ∧
      0 ∉ (o.mark ++ name).map UInt16.toUInt8 ∧ o.mark ++ name ≠ [] ∧
      commaByte ∉ (o.mark ++ name).map UInt16.toUInt8 := by
  cases o <;> decide

theorem name_songNames : ∀ name ∈ songNames, commaByte ∉ (textString name).bytes ∧
    (textString name).bytes ≠ [] ∧ (textString name).bytes.head? ≠ some plusByte ∧
      (textString name).bytes.head? ≠ some minusByte := by
  decide

section Server
variable {lib : Library} (query : MusicIndexer.DbQuery lib.strnatcasecmp)
  (column : PaneKind → ColumnTable) (order : Text → ColumnTable)

/-- The server knows the keys, and the columns of songs under their names. -/
structure ServesSongs : Prop extends ServesKeys query column where
  named : ∀ name ∈ songNames, query.findColumn (textString name) = some (order name)

variable {query column order}

theorem ServesSongs.label (h : ServesSongs query column order) {c : SortColumn}
    (hc : c.friendlyName ∈ songNames) :
    sortTerm query (textString c.label) = some (orderTerm order c) ∧
      missingColumn query (textString c.label) = none := by
  obtain ⟨hcomma, hnil, hplus, hminus⟩ := name_songNames _ hc
  let item : SortItem query := ⟨c.order.direction, textString c.friendlyName,
    order c.friendlyName, h.named _ hc, hcomma, fun _ => ⟨hnil, hplus, hminus⟩⟩
  obtain ⟨-, -, hbytes, hzero, -, -⟩ := label_songNames c.order _ hc
  have htext : (textString c.label).bytes = item.text :=
    (CString.ofBytes_bytes hzero).trans hbytes
  refine ⟨item.sortTerm_text htext, ?_⟩
  rw [missingColumn, item.modifier_text htext, item.found]

end Server

namespace SongSort
variable {sort : List SortColumn}

theorem label (h : SongSort sort) {t : Text} (ht : t ∈ sort.map SortColumn.label) :
    t.length ≤ 13 ∧ ClearText t ∧ 0 ∉ t.map UInt16.toUInt8 ∧ t ≠ [] ∧
      commaByte ∉ t.map UInt16.toUInt8 := by
  obtain ⟨c, hc, rfl⟩ := List.mem_map.mp ht
  obtain ⟨hlength, hclear, -, hzero, hnil, hcomma⟩ := label_songNames c.order _ (h.mem c hc)
  exact ⟨hlength, hclear, hzero, hnil, hcomma⟩

theorem length_le (h : SongSort sort) : sort.length ≤ 5 := by
  have hsubset : names sort ⊆ songNames := by
    intro name hname
    obtain ⟨c, hc, rfl⟩ := List.mem_map.mp hname
    exact h.mem c hc
  have hle := (List.subperm_of_subset h.nodup hsubset).length_le
  rwa [names, List.length_map] at hle

theorem clear (h : SongSort sort) :
    ClearText (comma.intercalate (sort.map SortColumn.label)) :=
  forall_mem_intercalate (List.forall_mem_singleton.mpr (by decide))
    fun _ ht => (h.label ht).2.1

/-- All labels fit into the copy that the server makes, and it reads them back. -/
theorem sortItems_labels (h : SongSort sort) :
    sortItems (textString (comma.intercalate (sort.map SortColumn.label))) =
      sort.map (fun c => textString c.label) := by
  have hmap : (comma.intercalate (sort.map SortColumn.label)).map UInt16.toUInt8 =
      [commaByte].intercalate ((sort.map SortColumn.label).map (List.map UInt16.toUInt8)) :=
    map_intercalate UInt16.toUInt8 comma _
  have hwords : ∀ w ∈ (sort.map SortColumn.label).map (List.map UInt16.toUInt8),
      0 ∉ w ∧ commaByte ∉ w ∧ w ≠ [] := by
    intro w hw
    obtain ⟨t, ht, rfl⟩ := List.mem_map.mp hw
    obtain ⟨-, -, hzero, hnil, hcomma⟩ := h.label ht
    exact ⟨hzero, hcomma, mt List.map_eq_nil_iff.mp hnil⟩
  have hzero : ∀ b ∈ (comma.intercalate (sort.map SortColumn.label)).map UInt16.toUInt8,
      b ≠ 0 := by
    rw [hmap]
    exact forall_mem_intercalate (List.forall_mem_singleton.mpr (by decide))
      fun w hw b hb heq => (hwords w hw).1 (heq ▸ hb)
  have hbytes : (textString (comma.intercalate (sort.map SortColumn.label))).bytes =
      [commaByte].intercalate ((sort.map SortColumn.label).map (List.map UInt16.toUInt8)) :=
    (CString.ofBytes_bytes fun hmem => hzero 0 hmem rfl).trans hmap
  have hlength : (textString (comma.intercalate (sort.map SortColumn.label))).bytes.length ≤
      maxSize := by
    have hle := length_intercalate_le comma (k := 13) fun t ht => (h.label ht).1
    rw [hbytes, ← hmap, List.length_map]
    refine hle.trans ((Nat.mul_le_mul_right _ ?_).trans (by decide : 5 * (13 + 1) ≤ maxSize))
    rw [List.length_map]
    exact h.length_le
  have hpieces : pieces commaByte
      ((textString (comma.intercalate (sort.map SortColumn.label))).bytes.take maxSize) =
        (sort.map SortColumn.label).map (List.map UInt16.toUInt8) := by
    rw [List.take_of_length_le hlength, hbytes, pieces_intercalate fun w hw => (hwords w hw).2.1]
    refine List.filter_eq_self.mpr fun w hw => ?_
    rw [List.isEmpty_eq_false_iff.mpr (hwords w hw).2.2, Bool.not_false]
  rw [sortItems_of_pieces hpieces, List.map_map, List.map_map]
  rfl

theorem sortValues (h : SongSort sort) {p : QueryParameters} (hsort : p.sortBy = .columns sort)
    {lib : Library} {query : MusicIndexer.DbQuery lib.strnatcasecmp}
    {column : PaneKind → ColumnTable} {order : Text → ColumnTable}
    (hserves : ServesSongs query column order) :
    (sortValues p).flatMap (fun value => (sortItems value).filterMap (sortTerm query)) =
        sort.map (orderTerm order) ∧
      (sortValues p).flatMap (fun value => (sortItems value).filterMap (missingColumn query)) =
        [] := by
  have hterms : (sort.map (fun c => textString c.label)).filterMap (sortTerm query) =
      sort.map (orderTerm order) := by
    rw [List.filterMap_map, ← List.filterMap_eq_map]
    exact List.filterMap_congr fun c hc => (hserves.label (h.mem c hc)).1
  have hmissing : (sort.map (fun c => textString c.label)).filterMap (missingColumn query) =
      [] := by
    rw [List.filterMap_map]
    exact List.filterMap_eq_nil_iff.mpr fun c hc => (hserves.label (h.mem c hc)).2
  rw [ModMp.sortValues, hsort, SortBy.written, SortBy.field]
  · split_ifs with hlength
    · rw [List.map_singleton, List.flatMap_singleton, List.flatMap_singleton, h.sortItems_labels]
      exact ⟨hterms, hmissing⟩
    · rw [List.length_eq_zero_iff.mp (Nat.eq_zero_of_not_pos hlength)]
      exact ⟨rfl, rfl⟩
  · rintro t ⟨⟩

theorem simple (h : SongSort sort) {p : QueryParameters} (hp : Simple p) :
    Simple { p with sortBy := .columns sort } := by
  refine ⟨hp.sourceId, hp.types, hp.texts, fun field hfield => ?_, hp.numResults⟩
  rw [SortBy.written, SortBy.field] at hfield
  · rw [List.mem_singleton.mp (List.mem_ite_nil_right.mp hfield).2]
    exact h.clear
  · rintro t ⟨⟩

end SongSort

namespace PlaylistUi

def requestSort (s : PlaylistUi ρ) : List SortColumn :=
  if s.query.sharesSort then s.sort else defaultSort

section Requests
variable [DecidableEq κ] {songId : ρ → κ} {server : QueryParameters → List (Option (List ρ))}
  {s t u : PlaylistUi ρ} {l : List (PlaylistAction ρ)}

theorem requestSort_sorted {a : PlaylistAction ρ} (ha : s.SortsSongs a)
    (hs : s.next songId server a = some t) (hrun : Run (Fires (next songId server)) t l u) :
    u.requestSort = u.sort := by
  have hshares : u.query.sharesSort = true :=
    hrun.invariant ((sharesSort_next hs).mpr (.inr ha))
      (fun _ _ _ h hs => (sharesSort_next hs).mpr (.inl h))
  exact if_pos hshares

theorem requestSort_unsorted (hstart : s.query.sharesSort = false)
    (hrun : Run (fun s a t => ¬ s.SortsSongs a ∧ Fires (next songId server) s a t) s l u) :
    u.requestSort = defaultSort := by
  have hshares : ¬ u.query.sharesSort = true :=
    hrun.invariant (I := fun s => ¬ s.query.sharesSort = true) (Bool.eq_false_iff.mp hstart)
      (fun _ _ _ h hs => mt (sharesSort_next hs.2).mp (not_or.mpr ⟨h, hs.1⟩))
  exact if_neg hshares

end Requests

theorem Sorts.request_eq {parameters : QueryParameters} {s : PlaylistUi ρ} (h : s.Sorts parameters)
    (hshared : s.query.sharesSort = true ∨ parameters.sortBy = .columns defaultSort) :
    s.query.request s.sort = { parameters with sortBy := .columns s.requestSort } ∧
      SongSort s.requestSort := by
  unfold PlaylistQuery.request requestSort
  split_ifs with hshares
  · exact ⟨by rw [h.parameters], h.songSort⟩
  · refine ⟨?_, .defaultSort⟩
    rw [h.parameters, ← hshared.resolve_left hshares]

end PlaylistUi

theorem PlaylistUi.Sorts.request {parameters : QueryParameters} {s : PlaylistUi ρ}
    (h : s.Sorts parameters) (hsimple : Simple parameters) (htexts : searchFields parameters = [])
    (hshared : s.query.sharesSort = true ∨ parameters.sortBy = .columns defaultSort)
    {hostname : Word} {count : ℕ} {lib : Library}
    {query : MusicIndexer.DbQuery lib.strnatcasecmp} {column : PaneKind → ColumnTable}
    {order : Text → ColumnTable} (hserves : ServesSongs query column order)
    {q : MusicIndexer.MusicQuery lib} (hknown : q.known = some query)
    (hwords : q.queryNouns =
      (pathWords (setUrl hostname count (s.query.request s.sort))).map textString) :
    ((∃ kind, 2 ≤ (parameters.ids kind).length) →
        MusicIndexer.getMusicQuery q = .error .nullPool) ∧
      ((∀ kind, (parameters.ids kind).length ≤ 1) →
        ∃ q', MusicIndexer.getMusicQuery q = .ok (0, q') ∧
          RequestRead column parameters count (s.requestSort.map (orderTerm order)) [] q q') := by
  obtain ⟨hrequest, hsort⟩ := h.request_eq hshared
  have hids : ∀ kind, ({ parameters with sortBy := .columns s.requestSort } :
      QueryParameters).ids kind = parameters.ids kind := fun kind => by cases kind <;> rfl
  obtain ⟨hterms, hmissing⟩ := hsort.sortValues
    (p := { parameters with sortBy := .columns s.requestSort }) rfl hserves
  rw [hrequest] at hwords
  obtain ⟨hfault, htaken⟩ := hserves.request (hsort.simple hsimple)
    (congrArg (List.map wordPair) htexts) hknown hwords
  simp only [hids] at hfault htaken
  refine ⟨hfault, fun hle => ?_⟩
  obtain ⟨q', hcall, ⟨r, hr, hconditions, hclauses⟩, herrors⟩ := htaken hle
  simp only [hids] at hconditions
  rw [hterms] at hclauses
  rw [hmissing] at herrors
  exact ⟨q', hcall, ⟨r, hr, hconditions, hclauses⟩, herrors⟩

open PlaylistUi in
/-- Whatever is clicked, the sort list agrees with the arrows, and from a click on an arrow outside
of a search on it is the one of the requests for the songs, where before it was the default list.
The server takes such a request exactly when no list has two identifiers in it: then it sorts by the
columns of the list, each in its direction, without an error. -/
theorem playlist_requests [DecidableEq κ] {songId : ρ → κ}
    {server : QueryParameters → List (Option (List ρ))} {parameters : QueryParameters}
    {playingIndex : Option ℤ} {otherPlaylist : Option (PlayedPlaylist ρ)}
    {l : List (PlaylistAction ρ)} {s : PlaylistUi ρ}
    (hrun : Run (Fires (next songId server))
      (create songId server parameters playingIndex otherPlaylist) l s)
    (hsimple : Simple parameters) (htexts : searchFields parameters = [])
    (hshared : s.query.sharesSort = true ∨ parameters.sortBy = .columns defaultSort)
    (hostname : Word) (count : ℕ) {lib : Library}
    {query : MusicIndexer.DbQuery lib.strnatcasecmp} {column : PaneKind → ColumnTable}
    {order : Text → ColumnTable} (hserves : ServesSongs query column order)
    {q : MusicIndexer.MusicQuery lib} (hknown : q.known = some query)
    (hwords : q.queryNouns =
      (pathWords (setUrl hostname count (s.query.request s.sort))).map textString) :
    Agrees s.songsTable.columns s.sort ∧
      (∀ a t m u, s.SortsSongs a → s.next songId server a = some t →
        Run (Fires (next songId server)) t m u → u.requestSort = u.sort) ∧
      (Run (fun s a t => ¬ s.SortsSongs a ∧ Fires (next songId server) s a t)
        (create songId server parameters playingIndex otherPlaylist) l s →
          s.requestSort = defaultSort) ∧
      ((∃ kind, 2 ≤ (parameters.ids kind).length) →
        MusicIndexer.getMusicQuery q = .error .nullPool) ∧
      ((∀ kind, (parameters.ids kind).length ≤ 1) →
        ∃ q', MusicIndexer.getMusicQuery q = .ok (0, q') ∧
          RequestRead column parameters count (s.requestSort.map (orderTerm order)) [] q q') := by
  have hsorts : s.Sorts parameters := hrun.invariant (create_sorts parameters playingIndex
    otherPlaylist) (fun _ _ _ h hs => h.next hs)
  have hcreate : (create songId server parameters playingIndex otherPlaylist).query.sharesSort =
      false := ((SameQueries.refl _).loadQuery songId server).shares
  exact ⟨hsorts.sound.agrees, fun a t m u ha hs hafter => requestSort_sorted ha hs hafter,
    requestSort_unsorted hcreate, hsorts.request hsimple htexts hshared hserves hknown hwords⟩

def songNameColumn (name : Text) : ColumnTable where
  id := textString name
  name := textString name
  freindlyName := textString name
  type := .varchar
  table := songTable

def songListQuery : MusicIndexer.DbQuery compareWords :=
  listedQuery (urlKinds.map idColumn ++ songNames.map songNameColumn)

theorem servesSongs_songListQuery :
    @ServesSongs (listedLibrary songListQuery) songListQuery idColumn songNameColumn where
  ids kind := by cases kind <;> rfl
  numbers _ := .inl rfl
  sortBy := rfl
  limit := rfl
  offset := rfl
  named := by
    simp only [songNames, songColumns, List.map_cons, List.map_nil, List.forall_mem_cons]
    exact ⟨rfl, rfl, rfl, rfl, rfl, List.forall_mem_nil _⟩

theorem simple_defaultParameters : Simple defaultParameters := by
  refine ⟨rfl, ⟨rfl, rfl⟩, List.forall_mem_nil _, fun field hfield => ?_, by decide⟩
  exact (SongSort.defaultSort.simple (p := { defaultParameters with sortBy := .null })
    ⟨rfl, ⟨rfl, rfl⟩, List.forall_mem_nil _, List.forall_mem_nil _, by decide⟩).sortBy field hfield

/-- The titles are sorted by, and the albums no longer. -/
theorem playlist_requests_title : ∃ (s : PlaylistUi ℕ)
    (q' : MusicIndexer.MusicQuery (listedLibrary songListQuery)),
    execute (PlaylistUi.next id twoRows) playlistOfTwo [.sort ⟨2, .up⟩, .sort ⟨4, .up⟩] = some s ∧
      MusicIndexer.getMusicQuery
        (receivedQuery songListQuery exampleHost 0 (s.query.request s.sort)) = .ok (0, q') ∧
      ∃ r, q'.dbQueryParameters = some r ∧ (r.sqlClauses .orderBy).value =
        some (CString.ofAscii "Songs.disc_no ASC,Songs.track_no ASC,Songs.song_title ASC") := by
  have hexecute : (execute (PlaylistUi.next id twoRows) playlistOfTwo
      [.sort ⟨2, .up⟩, .sort ⟨4, .up⟩]).map
        (fun s => s.requestSort.map (orderTerm songNameColumn)) =
      some [CString.ofAscii "Songs.disc_no ASC", CString.ofAscii "Songs.track_no ASC",
        CString.ofAscii "Songs.song_title ASC"] := by
    decide +kernel
  obtain ⟨s, hs, hterms⟩ := Option.map_eq_some_iff.mp hexecute
  have hrun : Run (Fires (PlaylistUi.next id twoRows)) playlistOfTwo _ s := run_of_execute hs
  have hsorts : s.Sorts defaultParameters :=
    hrun.invariant (PlaylistUi.create_sorts _ _ _) (fun _ _ _ h hs => h.next hs)
  obtain ⟨hrequest, hsort⟩ := hsorts.request_eq (.inr rfl)
  have hknown : (receivedQuery songListQuery exampleHost 0 (s.query.request s.sort)).known =
      some songListQuery := by
    rw [hrequest]
    exact (hsort.simple simple_defaultParameters).known rfl _ _ _
  obtain ⟨q', hcall, ⟨r, hr, -, -, -, horder⟩, -⟩ := (playlist_requests hrun
    simple_defaultParameters rfl (.inr rfl) exampleHost 0 servesSongs_songListQuery hknown
      rfl).2.2.2.2 (fun kind => by cases kind <;> decide)
  refine ⟨s, q', hs, hcall, r, hr, ?_⟩
  rw [horder, hterms]
  rfl

end ModMp
