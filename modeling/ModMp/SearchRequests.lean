import ModMp.PlaylistRequests

/-!
# What the server makes of the requests of a search

The text of a search box is sent between two asterisks. It is a condition on a column of texts, and
the server writes it between quotes, which needs a new text. So as long as a URL carries the texts,
no search is answered.
-/

namespace ModMp
open Runs Segments MusicIndexer CLib

variable {ρ κ : Type}

/-- A character that a URL carries as it is, and that is accepted in a text. -/
def passes (c : UInt16) : Bool := 32 ≤ c && c < 127 && !(text "/?#%\\").contains c

abbrev Passes (t : Text) : Prop := ∀ c ∈ t, passes c = true

theorem passes_spec {c : UInt16} (h : passes c = true) :
    isTextByte c.toUInt8 = true ∧ c.toUInt8 ≠ 0 ∧ c ≠ slash ∧ endsPath c = false := by
  have hall : ∀ n < 127, passes (UInt16.ofNat n) = true →
      isTextByte (UInt16.ofNat n).toUInt8 = true ∧ (UInt16.ofNat n).toUInt8 ≠ 0 ∧
        UInt16.ofNat n ≠ slash ∧ endsPath (UInt16.ofNat n) = false := by
    decide +kernel
  have hlt : c.toNat < 127 := by
    rw [passes, Bool.and_eq_true, Bool.and_eq_true] at h
    exact UInt16.lt_iff_toNat_lt.mp (of_decide_eq_true h.1.2)
  have hc := hall c.toNat hlt
  rw [UInt16.ofNat_toNat] at hc
  exact hc h

/-- A text that was put into a search box, as it is sent. -/
def Between (t : Text) : Prop := ∃ value, Passes value ∧ t = text "*" ++ value ++ text "*"

theorem Between.passes {t : Text} (h : Between t) : Passes t := by
  obtain ⟨value, hvalue, rfl⟩ := h
  rw [Passes, List.forall_mem_append, List.forall_mem_append]
  exact ⟨⟨List.all_eq_true.mp rfl, hvalue⟩, List.all_eq_true.mp rfl⟩

theorem textString_of_passes {t : Text} (h : Passes t) :
    (textString t).bytes.all isTextByte = true := by
  have hzero : 0 ∉ t.map UInt16.toUInt8 := by
    intro hmem
    obtain ⟨c, hc, heq⟩ := List.mem_map.mp hmem
    exact (passes_spec (h c hc)).2.1 heq
  rw [textString, CString.ofBytes_bytes hzero, List.all_eq_true]
  intro b hb
  obtain ⟨c, hc, rfl⟩ := List.mem_map.mp hb
  exact (passes_spec (h c hc)).1

def searchNames : List Text := [text "song_title", text "album_name", text "artist_name"]

section Texts
variable {p : QueryParameters}

def QueryParameters.withoutTexts (p : QueryParameters) : QueryParameters :=
  { p with songTitle := none, albumName := none, artistName := none }

theorem withoutTexts_setSearchText (p : QueryParameters) (name : Text) (value : Option Text) :
    (p.setSearchText name value).withoutTexts = p.withoutTexts := by
  unfold QueryParameters.setSearchText
  split_ifs <;> rfl

theorem mem_textField {key : String} {value : Option Text} {field : Text × Text} :
    field ∈ textField key value ↔ field.1 = text key ∧ value = some field.2 ∧ field.2 ≠ [] := by
  cases value with
  | none => simp [textField]
  | some t =>
      rw [textField, List.mem_ite_nil_right, List.mem_singleton, List.length_pos_iff]
      constructor
      · rintro ⟨hne, rfl⟩
        exact ⟨rfl, rfl, hne⟩
      · rintro ⟨hkey, hvalue, hne⟩
        cases hvalue
        exact ⟨hne, Prod.ext hkey rfl⟩

theorem mem_searchFields {field : Text × Text} : field ∈ searchFields p ↔
    field.1 ∈ searchNames ∧ p.searchText field.1 = some field.2 ∧ field.2 ≠ [] := by
  have hnames : p.searchText (text "song_title") = p.songTitle ∧
      p.searchText (text "album_name") = p.albumName ∧
      p.searchText (text "artist_name") = p.artistName := ⟨rfl, rfl, rfl⟩
  rw [searchFields, List.mem_append, List.mem_append, mem_textField, mem_textField, mem_textField]
  constructor
  · rintro ((⟨hkey, hvalue⟩ | ⟨hkey, hvalue⟩) | ⟨hkey, hvalue⟩)
    · rw [hkey, hnames.1]
      exact ⟨by decide, hvalue⟩
    · rw [hkey, hnames.2.1]
      exact ⟨by decide, hvalue⟩
    · rw [hkey, hnames.2.2]
      exact ⟨by decide, hvalue⟩
  · rintro ⟨hkey, hvalue⟩
    rw [searchNames, List.mem_cons, List.mem_cons, List.mem_singleton] at hkey
    rcases hkey with hkey | hkey | hkey
    · rw [hkey, hnames.1] at hvalue
      exact .inl (.inl ⟨hkey, hvalue⟩)
    · rw [hkey, hnames.2.1] at hvalue
      exact .inl (.inr ⟨hkey, hvalue⟩)
    · rw [hkey, hnames.2.2] at hvalue
      exact .inr ⟨hkey, hvalue⟩

theorem searchText_setSearchText {name : Text} (hname : name ∈ searchNames)
    (value : Option Text) (key : Text) : (p.setSearchText name value).searchText key =
      if key = name then value else p.searchText key := by
  rw [searchNames, List.mem_cons, List.mem_cons, List.mem_singleton] at hname
  rcases hname with rfl | rfl | rfl
  all_goals
    unfold QueryParameters.setSearchText QueryParameters.searchText
    split_ifs <;> first | rfl | simp_all

theorem mem_searchFields_set {name : Text} (hname : name ∈ searchNames) {value : Option Text}
    {field : Text × Text} (h : field ∈ searchFields (p.setSearchText name value)) :
    value = some field.2 ∨ field ∈ searchFields p := by
  obtain ⟨hkey, hvalue, hne⟩ := mem_searchFields.mp h
  rw [searchText_setSearchText hname] at hvalue
  split_ifs at hvalue
  · exact .inl hvalue
  · exact .inr (mem_searchFields.mpr ⟨hkey, hvalue, hne⟩)

theorem searchFields_setSearchText {name : Text} (hname : name ∈ searchNames) (value : Text) :
    searchFields (p.setSearchText name (some (text "*" ++ value ++ text "*"))) ≠ [] := by
  have hmem : (name, text "*" ++ value ++ text "*") ∈
      searchFields (p.setSearchText name (some (text "*" ++ value ++ text "*"))) := by
    refine mem_searchFields.mpr ⟨hname, ?_, List.append_ne_nil_of_right_ne_nil _ (by decide)⟩
    rw [searchText_setSearchText hname, if_pos rfl]
  exact List.ne_nil_of_mem hmem

end Texts

/-- The text of a search box that is a new condition passes. -/
def PlaylistAction.Passes : PlaylistAction ρ → Prop
  | .search _ value => ModMp.Passes value
  | _ => True

instance (a : PlaylistAction ρ) : Decidable a.Passes :=
  match a with
  | .search _ value => List.decidableBAll (fun c => passes c = true) value
  | .sort _ => inferInstanceAs (Decidable True)
  | .play _ _ => inferInstanceAs (Decidable True)
  | .playerChange _ => inferInstanceAs (Decidable True)
  | .shuffle _ => inferInstanceAs (Decidable True)

namespace PlaylistUi
variable [DecidableEq κ] {songId : ρ → κ} {server : QueryParameters → List (Option (List ρ))}
  {parameters : QueryParameters} {s t : PlaylistUi ρ}

/-- A search has texts, they come from the search boxes, and nothing else differs from the other
query. -/
structure Searches (parameters : QueryParameters) (s : PlaylistUi ρ) : Prop where
  sorts : s.Sorts parameters
  parameters : s.searchQuery.parameters.withoutTexts = parameters.withoutTexts
  texts : ∀ field ∈ searchFields s.searchQuery.parameters, Between field.2
  searching : s.searchResults.isSome = true → searchFields s.searchQuery.parameters ≠ []

theorem Searches.same (h : Searches parameters s) (hsame : SameQueries s t) :
    Searches parameters t := by
  refine ⟨h.sorts.same hsame, ?_, ?_, ?_⟩
  · rw [hsame.searchQuery]
    exact h.parameters
  · rw [hsame.searchQuery]
    exact h.texts
  · rw [hsame.searchQuery]
    exact fun hsearching => h.searching (hsame.searching hsearching)

theorem Searches.loadQuery (h : Searches parameters s) :
    Searches parameters (s.loadQuery songId server) :=
  h.same ((SameQueries.refl s).loadQuery songId server)

theorem Searches.loadSearchQuery (h : Searches parameters s)
    (hsearching : s.searchResults.isSome = true) :
    Searches parameters (s.loadSearchQuery server) :=
  h.same ((SameQueries.refl s).loadSearchQuery hsearching server)

theorem Sorts.search_name (h : Sorts parameters s) {col : Column}
    (hcol : col ∈ s.songsTable.columns) (hsearch : col.search = true) :
    col.friendlyName ∈ searchNames := by
  have hhead : col.head ∈ songColumns.map Column.head := by
    rw [← h.heads]
    exact List.mem_map_of_mem hcol
  have hall : ∀ head ∈ songColumns.map Column.head, head.2 = true → head.1 ∈ searchNames := by
    decide
  exact hall col.head hhead hsearch

theorem Sorts.goes_on (h : Sorts parameters s) {p : QueryParameters}
    (hends : ¬ p.searchEmpty s.songsTable.columns = true) : searchFields p ≠ [] := by
  rw [QueryParameters.searchEmpty, List.all_eq_true] at hends
  push Not at hends
  obtain ⟨col, hcol, hnot⟩ := hends
  simp only [ne_eq, Bool.or_eq_true, not_or, Bool.not_eq_true', Bool.not_eq_false,
    decide_eq_true_eq] at hnot
  obtain ⟨hsearch, hne⟩ := hnot
  cases htext : p.searchText col.friendlyName with
  | none =>
      rw [htext] at hne
      exact absurd rfl hne
  | some t =>
      rw [htext] at hne
      have hmem : (col.friendlyName, t) ∈ searchFields p :=
        mem_searchFields.mpr ⟨h.search_name hcol hsearch, htext, hne⟩
      exact List.ne_nil_of_mem hmem

theorem Searches.next {a : PlaylistAction ρ} (h : Searches parameters s) (ha : a.Passes)
    (hs : s.next songId server a = some t) : Searches parameters t := by
  cases a with
  | sort click =>
      obtain ⟨r, hr, rfl⟩ := Option.map_eq_some_iff.mp hs
      obtain ⟨hheads, hsound⟩ := h.sorts.click hr
      dsimp only
      split_ifs with hsearch
      · exact Searches.loadQuery ⟨⟨hheads, hsound, h.sorts.parameters⟩, h.parameters, h.texts,
          h.searching⟩
      · refine Searches.loadSearchQuery ⟨⟨hheads, hsound, h.sorts.parameters⟩, h.parameters,
          h.texts, h.searching⟩ ?_
        exact Option.isSome_iff_ne_none.mpr (mt Option.isNone_iff_eq_none.mpr hsearch)
  | search column value =>
      obtain ⟨col, hcol, hs⟩ := Option.bind_eq_some_iff.mp hs
      obtain ⟨hsearch, hs⟩ := Option.ite_none_right_eq_some.mp hs
      cases hs
      have hname := h.sorts.search_name (List.mem_of_getElem? hcol) hsearch
      have hsorts : Sorts parameters s := h.sorts
      have hcleared : ∀ field ∈ searchFields
          (s.searchQuery.parameters.setSearchText col.friendlyName none), Between field.2 := by
        intro field hfield
        rcases mem_searchFields_set hname hfield with hvalue | hfield
        · cases hvalue
        · exact h.texts field hfield
      unfold searchBoxChange
      split_ifs with hvalue hends
      · refine Searches.loadSearchQuery ⟨⟨hsorts.heads, hsorts.sound, hsorts.parameters⟩,
          (withoutTexts_setSearchText _ _ _).trans h.parameters, fun field hfield => ?_,
          fun _ => searchFields_setSearchText hname value⟩ rfl
        rcases mem_searchFields_set hname hfield with hvalue | hfield
        · rw [← Option.some.inj hvalue]
          exact ⟨value, ha, rfl⟩
        · exact h.texts field hfield
      · exact Searches.loadQuery ⟨⟨hsorts.heads, hsorts.sound, hsorts.parameters⟩,
          (withoutTexts_setSearchText _ _ _).trans h.parameters, hcleared,
          fun h => absurd h Bool.false_ne_true⟩
      · exact ⟨⟨hsorts.heads, hsorts.sound, hsorts.parameters⟩,
          (withoutTexts_setSearchText _ _ _).trans h.parameters, hcleared,
          fun _ => hsorts.goes_on hends⟩
  | play row found =>
      obtain ⟨row, -, rfl⟩ := Option.map_eq_some_iff.mp hs
      exact h.same (SameQueries.songClick songId s row found)
  | playerChange song =>
      cases hs
      exact h.same ((SameQueries.refl s).changeSong songId _)
  | shuffle random =>
      cases hs
      exact h.same (SameQueries.shuffle songId random s)

/-- The parameters of the request that an action makes for a search. -/
def searchAsked (s : PlaylistUi ρ) : PlaylistAction ρ → Option QueryParameters
  | .sort click =>
      if s.searchResults.isSome then
        (TableSort.click ⟨s.songsTable.columns, s.sort⟩ click).map (fun r =>
          PlaylistQuery.request { s.searchQuery with sharesSort := true } r.sort)
      else none
  | .search column value =>
      if 0 < value.length then
        s.songsTable.columns[column]?.map (fun col =>
          let s := s.setSearchText col.friendlyName (some (text "*" ++ value ++ text "*"))
          s.searchQuery.request s.sort)
      else none
  | _ => none

/-- It is the request of the search query after the action, whether the search goes on or not. -/
theorem Searches.asked {a : PlaylistAction ρ} (h : Searches parameters s)
    (hs : s.next songId server a = some t) {p : QueryParameters} (hp : s.searchAsked a = some p) :
    p = t.searchQuery.request t.sort ∧ searchFields t.searchQuery.parameters ≠ [] := by
  cases a with
  | sort click =>
      obtain ⟨hsearching, hp⟩ := Option.ite_none_right_eq_some.mp hp
      obtain ⟨r, hr, rfl⟩ := Option.map_eq_some_iff.mp hp
      obtain ⟨r', hr', rfl⟩ := Option.map_eq_some_iff.mp hs
      cases hr.symm.trans hr'
      have hnot : ¬ s.searchResults.isNone = true := by
        rw [Option.isNone_iff_eq_none]
        exact Option.isSome_iff_ne_none.mp hsearching
      dsimp only
      rw [if_neg hnot]
      exact ⟨rfl, h.searching hsearching⟩
  | search column value =>
      obtain ⟨hvalue, hp⟩ := Option.ite_none_right_eq_some.mp hp
      obtain ⟨col, hcol, rfl⟩ := Option.map_eq_some_iff.mp hp
      obtain ⟨col', hcol', hs⟩ := Option.bind_eq_some_iff.mp hs
      cases hcol.symm.trans hcol'
      obtain ⟨hsearch, hs⟩ := Option.ite_none_right_eq_some.mp hs
      cases hs
      rw [searchBoxChange, if_pos hvalue]
      have hname := h.sorts.search_name (List.mem_of_getElem? hcol) hsearch
      exact ⟨rfl, searchFields_setSearchText hname value⟩
  | play row found => cases hp
  | playerChange song => cases hp
  | shuffle random => cases hp

theorem create_searches (hnone : searchFields parameters = []) (playingIndex : Option ℤ)
    (otherPlaylist : Option (PlayedPlaylist ρ)) :
    Searches parameters (create songId server parameters playingIndex otherPlaylist) := by
  refine Searches.loadQuery ⟨⟨rfl, TableSort.create_sound, rfl⟩, rfl, ?_, nofun⟩
  rw [hnone]
  exact List.forall_mem_nil _

theorem Searches.request (h : Searches parameters s) (hsimple : Simple parameters) :
    Simple (s.searchQuery.request s.sort) ∧
      searchFields (s.searchQuery.request s.sort) = searchFields s.searchQuery.parameters := by
  have hsource := congrArg QueryParameters.sourceId h.parameters
  have htypes := congrArg (fun p => (p.sourceType, p.outputType)) h.parameters
  have hresults := congrArg QueryParameters.numResults h.parameters
  have hsort := congrArg QueryParameters.sortBy h.parameters
  have hsearch : Simple s.searchQuery.parameters := by
    refine ⟨hsource.trans hsimple.sourceId, ?_, fun field hfield c hc => ?_, ?_, ?_⟩
    · exact ⟨(Prod.mk.inj htypes).1.trans hsimple.types.1,
        (Prod.mk.inj htypes).2.trans hsimple.types.2⟩
    · exact (passes_spec ((h.texts field hfield).passes c hc)).2.2
    · rw [show s.searchQuery.parameters.sortBy = parameters.sortBy from hsort]
      exact hsimple.sortBy
    · rw [show s.searchQuery.parameters.numResults = parameters.numResults from hresults]
      exact hsimple.numResults
  unfold PlaylistQuery.request
  split_ifs
  · exact ⟨h.sorts.songSort.simple hsearch, rfl⟩
  · exact ⟨hsearch, rfl⟩

end PlaylistUi

section Server
variable {lib : Library} {query : MusicIndexer.DbQuery lib.strnatcasecmp}
  {column : PaneKind → ColumnTable} {order : Text → ColumnTable} {p : QueryParameters}

theorem ServesSongs.searchName (h : ServesSongs query column order) {name : Text}
    (hname : name ∈ searchNames) :
    treatment lib query (textString name) = .condition (order name) := by
  have hsubset : ∀ name ∈ searchNames, name ∈ songNames := by decide
  rw [treatment, h.named name (hsubset name hname)]

/-- The condition of a text that passes needs a new text. -/
theorem ServesSongs.text_stops (h : ServesSongs query column order) {field : Text × Text}
    (hvarchar : (order field.1).type = .varchar) (hfield : field ∈ searchFields p)
    (hpasses : Passes field.2) : proceeds query (wordPair field) = false := by
  have hconcat : concatenates (order field.1).toDbTableColumn (textString field.2) = true := by
    unfold concatenates
    rw [hvarchar]
    exact textString_of_passes hpasses
  rw [proceeds, wordPair, h.searchName (mem_searchFields.mp hfield).1]
  exact congrArg not hconcat

end Server

open PlaylistUi in
/-- The server goes through the NULL pool at a request with a text of a search box. -/
theorem PlaylistUi.Searches.refused {parameters : QueryParameters} {s : PlaylistUi ρ}
    (h : s.Searches parameters) (hsimple : Simple parameters)
    (hasked : searchFields s.searchQuery.parameters ≠ []) {hostname : Word} {count : ℕ}
    {lib : Library} {query : MusicIndexer.DbQuery lib.strnatcasecmp}
    {column : PaneKind → ColumnTable} {order : Text → ColumnTable}
    (hserves : ServesSongs query column order)
    (hvarchar : ∀ name ∈ searchNames, (order name).type = .varchar)
    {q : MusicIndexer.MusicQuery lib} (hknown : q.known = some query)
    (hwords : q.queryNouns =
      (pathWords (setUrl hostname count (s.searchQuery.request s.sort))).map textString) :
    (∃ name ∈ searchNames, ∃ t, Between t ∧
        (s.searchQuery.request s.sort).searchText name = some t) ∧
      MusicIndexer.getMusicQuery q = .error .nullPool := by
  obtain ⟨hrequest, hfields⟩ := h.request hsimple
  obtain ⟨hpairs, hlength⟩ := hrequest.pairs_words hwords
  have hkeys := hserves.known_keys (p := s.searchQuery.request s.sort) (fun pair hpair => by
    obtain ⟨field, hfield, rfl⟩ := List.mem_map.mp hpair
    rw [wordPair, hserves.searchName (mem_searchFields.mp hfield).1]
    rintro ⟨⟩) count
  rw [← hpairs] at hkeys
  obtain ⟨field, hfield⟩ := List.exists_mem_of_ne_nil _ hasked
  have hbetween := h.texts field hfield
  refine ⟨?_, (getMusicQuery_of_keys hknown hlength hkeys).1 fun hall => ?_⟩
  · obtain ⟨hname, htext, -⟩ := mem_searchFields.mp (hfields ▸ hfield)
    exact ⟨field.1, hname, field.2, hbetween, htext⟩
  have hstops := hserves.text_stops (hvarchar _ (mem_searchFields.mp hfield).1) hfield
    hbetween.passes
  have hmem : wordPair field ∈ pairs (q.queryNouns.drop 2) := by
    rw [hpairs, requestPairs, textPairs, hfields]
    exact List.mem_append_left _ (List.mem_append_right _ (List.mem_map_of_mem hfield))
  exact Bool.false_ne_true (hstops.symm.trans (hall _ hmem))

open PlaylistUi in
/-- The request of a search that is on, and each one that an action makes for a search, has the text
of a search box between two asterisks, and the server goes through the NULL pool at it, as long as a
URL carries all texts that are put into the search boxes. -/
theorem search_requests [DecidableEq κ] {songId : ρ → κ}
    {server : QueryParameters → List (Option (List ρ))} {parameters : QueryParameters}
    {playingIndex : Option ℤ} {otherPlaylist : Option (PlayedPlaylist ρ)}
    {l : List (PlaylistAction ρ)} {s : PlaylistUi ρ}
    (hrun : Run (fun s a s' => a.Passes ∧ Fires (next songId server) s a s')
      (create songId server parameters playingIndex otherPlaylist) l s)
    (hsimple : Simple parameters) (htexts : searchFields parameters = []) {p : QueryParameters}
    (hasked : s.searchResults.isSome = true ∧ p = s.searchQuery.request s.sort ∨
      ∃ a t, a.Passes ∧ s.next songId server a = some t ∧ s.searchAsked a = some p)
    (hostname : Word) (count : ℕ) {lib : Library}
    {query : MusicIndexer.DbQuery lib.strnatcasecmp} {column : PaneKind → ColumnTable}
    {order : Text → ColumnTable} (hserves : ServesSongs query column order)
    (hvarchar : ∀ name ∈ searchNames, (order name).type = .varchar)
    {q : MusicIndexer.MusicQuery lib} (hknown : q.known = some query)
    (hwords : q.queryNouns = (pathWords (setUrl hostname count p)).map textString) :
    (∃ name ∈ searchNames, ∃ t, Between t ∧ p.searchText name = some t) ∧
      MusicIndexer.getMusicQuery q = .error .nullPool := by
  have hsearches : s.Searches parameters := hrun.invariant
    (create_searches htexts playingIndex otherPlaylist) (fun _ _ _ h hs => h.next hs.1 hs.2)
  rcases hasked with ⟨hsearching, rfl⟩ | ⟨a, t, ha, hs, hp⟩
  · exact hsearches.refused hsimple (hsearches.searching hsearching) hserves hvarchar hknown hwords
  · obtain ⟨rfl, hfields⟩ := hsearches.asked hs hp
    exact (hsearches.next ha hs).refused hsimple hfields hserves hvarchar hknown hwords

theorem PlaylistQuery.request_type (q : PlaylistQuery ρ) (sort : List SortColumn) :
    (q.request sort).type = q.parameters.type := by
  unfold request
  split_ifs <;> rfl

/-- The titles are searched, and then the artists are sorted by. -/
theorem search_requests_title : ∃ s : PlaylistUi ℕ,
    execute (fun s a => if a.Passes then s.next id twoRows a else none) playlistOfTwo
      [.search 2 (text "a b"), .sort ⟨3, .up⟩] = some s ∧
    (s.searchQuery.request s.sort).songTitle = some (text "*a b*") ∧
    MusicIndexer.getMusicQuery (receivedQuery songListQuery exampleHost 0
      (s.searchQuery.request s.sort)) = .error .nullPool := by
  have hexecute : (execute (fun s a => if a.Passes then s.next id twoRows a else none)
      playlistOfTwo [.search 2 (text "a b"), .sort ⟨3, .up⟩]).map
        (fun s => (s.searchResults.isSome, (s.searchQuery.request s.sort).songTitle)) =
          some (true, some (text "*a b*")) := by
    decide +kernel
  obtain ⟨s, hs, hstate⟩ := Option.map_eq_some_iff.mp hexecute
  obtain ⟨hsearching, htitle⟩ := Prod.mk.inj hstate
  have hrun : Run (fun s a s' => a.Passes ∧ Fires (PlaylistUi.next id twoRows) s a s')
      playlistOfTwo _ s := run_of_execute_guarded hs
  have hsearches : s.Searches defaultParameters := hrun.invariant
    (PlaylistUi.create_searches rfl _ _) (fun _ _ _ h hs => h.next hs.1 hs.2)
  have htype : (s.searchQuery.request s.sort).type.letters = text "songs" := by
    rw [PlaylistQuery.request_type]
    exact congrArg (fun p => p.type.letters) hsearches.parameters
  have hknown := (hsearches.request simple_defaultParameters).1.known htype songListQuery
    exampleHost 0
  exact ⟨s, hs, htitle, (search_requests hrun simple_defaultParameters rfl (.inl ⟨hsearching, rfl⟩)
    exampleHost 0 servesSongs_songListQuery (fun _ _ => rfl) hknown rfl).2⟩

end ModMp
