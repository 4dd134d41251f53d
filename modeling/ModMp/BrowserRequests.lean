import ModMp.BrowserLoads
import ModMp.UrlRequests

/-!
# What the server makes of the requests of the browser

The requests of the browser are the loads of its panes and the playlist that is made from the
selection. They have identifiers, a sort order that is a string, and a limit.
-/

namespace ModMp
open Runs Segments MusicIndexer CLib

def sortNames : List Text :=
  [text "artist_name", text "album_name", text "song_name", text "song_title"]

/-- Only identifiers, a name to sort by and a limit are set. -/
structure Plain (p : QueryParameters) : Prop where
  sourceId : p.sourceId = []
  names : p.songTitle = some [] ∧ p.albumName = some [] ∧ p.artistName = some []
  types : p.sourceType = none ∧ p.outputType = none
  sortBy : ∃ t ∈ sortNames, p.sortBy = .string t
  numResults : 0 < p.numResults

theorem Browser.addIds_shape {ρ : Type} (panes : List (Pane ρ)) (p : QueryParameters) :
    ∃ artists albums songs, Browser.addIds panes p =
      { p with artistId := artists, albumId := albums, songId := songs } := by
  induction panes generalizing p with
  | nil => exact ⟨p.artistId, p.albumId, p.songId, rfl⟩
  | cons pane panes ih =>
      obtain ⟨artists, albums, songs, heq⟩ :=
        ih (p.setIds pane.kind (p.ids pane.kind ++ pane.table.selectedIds))
      refine ⟨artists, albums, songs, ?_⟩
      change Browser.addIds panes (p.setIds pane.kind _) = _
      rw [heq]
      cases pane.kind <;> rfl

namespace Plain
variable {p : QueryParameters}

theorem setIds (h : Plain p) (kind : PaneKind) (ids : List ℕ) : Plain (p.setIds kind ids) := by
  cases kind <;> exact ⟨h.sourceId, h.names, h.types, h.sortBy, h.numResults⟩

theorem wipeIds (h : Plain p) : Plain p.wipeIds :=
  ⟨h.sourceId, h.names, h.types, h.sortBy, h.numResults⟩

theorem addIds {ρ : Type} (h : Plain p) (panes : List (Pane ρ)) :
    Plain (Browser.addIds panes p) := by
  obtain ⟨artists, albums, songs, heq⟩ := Browser.addIds_shape panes p
  rw [heq]
  exact ⟨h.sourceId, h.names, h.types, h.sortBy, h.numResults⟩

theorem newParameters (kind : PaneKind) : Plain (Browser.newParameters kind) := by
  refine ⟨rfl, ⟨rfl, rfl, rfl⟩, ⟨rfl, rfl⟩, ⟨_, ?_, rfl⟩, by cases kind <;> decide⟩
  cases kind <;> decide

theorem searchFields_eq_nil (h : Plain p) : searchFields p = [] := by
  rw [searchFields, h.names.1, h.names.2.1, h.names.2.2]
  rfl

theorem simple (h : Plain p) : Simple p := by
  refine ⟨h.sourceId, h.types, ?_, fun field hfield => ?_, h.numResults⟩
  · rw [h.searchFields_eq_nil]
    exact List.forall_mem_nil _
  · obtain ⟨t, -, hsort⟩ := h.sortBy
    rw [hsort, SortBy.written] at hfield
    rw [List.mem_singleton.mp (List.mem_ite_nil_right.mp hfield).2]
    exact clear_sortStringOfLetters t

theorem sortValues_eq (h : Plain p) : ∃ t ∈ sortNames, p.sortBy = .string t ∧
    sortValues p = [textString (sortStringOfLetters t)] := by
  obtain ⟨t, ht, hsort⟩ := h.sortBy
  have hlength : 0 < t.length := (by decide : ∀ t ∈ sortNames, 0 < t.length) t ht
  refine ⟨t, ht, hsort, ?_⟩
  rw [sortValues, hsort, SortBy.written, if_pos hlength, List.map_singleton]

end Plain

namespace Browser
variable {ρ : Type} {b : Browser ρ}

/-- The parameters of the playlist that is made from the selection. -/
def newPlaylistFromSelection (b : Browser ρ) : QueryParameters :=
  { addIds b.panes { newParameters .song with numResults := 0, sortBy := .null } with
    sortBy := .string (text "song_title")
    numResults := 1000 }

/-- What the browser asks for after an action, and what it can ask for next. -/
def requests (b : Browser ρ) : List QueryParameters :=
  b.loads.map Prod.snd ++ [b.newPlaylistFromSelection]

theorem ids_newPlaylistFromSelection (b : Browser ρ) (kind : PaneKind) :
    b.newPlaylistFromSelection.ids kind = selection b.panes kind := by
  have hids := ids_addIds b.panes { newParameters .song with numResults := 0, sortBy := .null } kind
  cases kind <;> exact hids

theorem type_newPlaylistFromSelection (b : Browser ρ) :
    b.newPlaylistFromSelection.type.letters = text "songs" := by
  obtain ⟨artists, albums, songs, heq⟩ :=
    addIds_shape b.panes { newParameters .song with numResults := 0, sortBy := .null }
  rw [newPlaylistFromSelection, heq]
  rfl

theorem plain_newPlaylistFromSelection (b : Browser ρ) : Plain b.newPlaylistFromSelection := by
  obtain ⟨artists, albums, songs, heq⟩ :=
    addIds_shape b.panes { newParameters .song with numResults := 0, sortBy := .null }
  rw [newPlaylistFromSelection, heq]
  exact ⟨rfl, ⟨rfl, rfl, rfl⟩, ⟨rfl, rfl⟩, ⟨text "song_title", by decide, rfl⟩,
    Nat.succ_pos 999⟩

structure PlainQueries (b : Browser ρ) : Prop where
  panes : ∀ pane ∈ b.panes, Plain pane.parameters
  loads : ∀ load ∈ b.loads, Plain load.2

theorem PlainQueries.loadNext (h : b.PlainQueries) (passingType : PaneKind) (selected : Bool)
    (passingId j : ℕ) : (b.loadNext passingType selected passingId j).PlainQueries := by
  induction b, j using loadNext.induct passingType selected passingId with
  | case1 b j hj ih =>
      rw [Browser.loadNext, dif_pos hj]
      apply ih
      have hparameters : Plain ((b.panes[j].parameters.setIds passingType
          (passId (b.panes[j].parameters.ids passingType) selected passingId)).wipeIds) :=
        ((h.panes _ (List.getElem_mem hj)).setIds _ _).wipeIds
      refine ⟨fun pane hpane => ?_, fun load hload => ?_⟩
      · rcases List.mem_or_eq_of_mem_set hpane with hpane | rfl
        · exact h.panes pane hpane
        · exact hparameters.addIds _
      · rcases List.mem_append.mp hload with hload | hload
        · exact h.loads load hload
        · rw [List.mem_singleton.mp hload]
          exact hparameters.addIds _
  | case2 b j hj =>
      rw [Browser.loadNext, dif_neg hj]
      exact h

theorem PlainQueries.step {idOf : PaneKind → ρ → ℕ} {b' : Browser ρ} (h : b.PlainQueries)
    {a : BrowserAction ρ} (hstep : next idOf b a = some b') : b'.PlainQueries := by
  cases a with
  | addTable kind =>
      cases hstep
      refine ⟨fun pane hpane => ?_, fun load hload => ?_⟩
      · rcases List.mem_append.mp hpane with hpane | hpane
        · exact h.panes pane hpane
        · rw [List.mem_singleton.mp hpane]
          exact (Plain.newParameters kind).addIds b.panes
      · rw [List.mem_singleton.mp hload]
        exact (Plain.newParameters kind).addIds b.panes
  | receive j data =>
      cases hstep
      refine ⟨fun pane hpane => ?_, List.forall_mem_nil _⟩
      obtain ⟨i, hi⟩ := List.mem_iff_getElem?.mp hpane
      rw [receive, List.getElem?_modify] at hi
      obtain ⟨old, hold, rfl⟩ := Option.map_eq_some_iff.mp hi
      have hplain := h.panes old (List.mem_of_getElem? hold)
      split_ifs
      · exact hplain
      · exact hplain
  | click k row =>
      obtain ⟨pane, hpane, hclick⟩ := Option.bind_eq_some_iff.mp hstep
      obtain ⟨r, -, hclick⟩ := Option.bind_eq_some_iff.mp hclick
      obtain ⟨⟨isSelected, table⟩, -, rfl⟩ := Option.map_eq_some_iff.mp hclick
      refine PlainQueries.loadNext ⟨fun other hother => ?_, List.forall_mem_nil _⟩ _ _ _ _
      rcases List.mem_or_eq_of_mem_set hother with hother | rfl
      · exact h.panes other hother
      · exact h.panes pane (List.mem_of_getElem? hpane)

theorem plain_requests {idOf : PaneKind → ρ → ℕ} {l : List (BrowserAction ρ)}
    (hrun : Run (Fires (next idOf)) empty l b) : ∀ p ∈ b.requests, Plain p := by
  have hplain : b.PlainQueries :=
    hrun.invariant ⟨List.forall_mem_nil _, List.forall_mem_nil _⟩ (fun _ _ _ h hs => h.step hs)
  intro p hp
  rcases List.mem_append.mp hp with hp | hp
  · obtain ⟨load, hload, rfl⟩ := List.mem_map.mp hp
    exact hplain.loads load hload
  · rw [List.mem_singleton.mp hp]
    exact b.plain_newPlaylistFromSelection

end Browser

section Server
variable {lib : Library} (query : MusicIndexer.DbQuery lib.strnatcasecmp)
  (column : PaneKind → ColumnTable)

/-- The server knows the keys, and no column with the names in the list to sort by. -/
structure ServesIds : Prop extends ServesKeys query column where
  unnamed : query.findColumn (CString.ofAscii "NaN") = none ∧
    query.findColumn (CString.ofAscii "undefinedundefined") = none

variable {query column}

theorem sortItems_letters : ∀ t ∈ sortNames, sortItems (textString (sortStringOfLetters t)) =
    CString.ofAscii "NaN" ::
      List.replicate (t.length - 1) (CString.ofAscii "undefinedundefined") := by
  decide +kernel

def sortErrors (t : Text) : List ErrorCall :=
  unknownColumn (CString.ofAscii "NaN") ::
    List.replicate (t.length - 1) (unknownColumn (CString.ofAscii "undefinedundefined"))

theorem ServesIds.sortItems (h : ServesIds query column) {t : Text} (ht : t ∈ sortNames) :
    (MusicIndexer.sortItems (textString (sortStringOfLetters t))).filterMap (sortTerm query) = [] ∧
      (MusicIndexer.sortItems (textString (sortStringOfLetters t))).filterMap
        (missingColumn query) = sortErrors t := by
  have hmodifier : ∀ name ∈ [CString.ofAscii "NaN", CString.ofAscii "undefinedundefined"],
      (modifier name).2 = name := by decide
  have hnone : ∀ name ∈ [CString.ofAscii "NaN", CString.ofAscii "undefinedundefined"],
      sortTerm query name = none ∧ missingColumn query name = some (unknownColumn name) := by
    intro name hname
    have hcolumn : query.findColumn (modifier name).2 = none := by
      rw [hmodifier name hname]
      rcases List.mem_cons.mp hname with rfl | hname
      · exact h.unnamed.1
      · rw [List.mem_singleton.mp hname]
        exact h.unnamed.2
    rw [sortTerm, missingColumn, hcolumn, hmodifier name hname]
    exact ⟨rfl, rfl⟩
  obtain ⟨hterm, herror⟩ := hnone _ List.mem_cons_self
  obtain ⟨hterm', herror'⟩ := hnone _ (List.mem_cons_of_mem _ List.mem_cons_self)
  rw [sortItems_letters t ht, List.filterMap_cons_none hterm, List.filterMap_cons_some herror]
  refine ⟨List.filterMap_eq_nil_iff.mpr fun item hitem => ?_, congrArg _ ?_⟩
  · rw [List.eq_of_mem_replicate hitem]
    exact hterm'
  · rw [List.filterMap_replicate_of_some herror']

theorem Plain.request {p : QueryParameters} (hplain : Plain p) {hostname : Word} {count : ℕ}
    (hserves : ServesIds query column) {q : MusicIndexer.MusicQuery lib}
    (hknown : q.known = some query)
    (hwords : q.queryNouns = (pathWords (setUrl hostname count p)).map textString) :
    ((∃ kind, 2 ≤ (p.ids kind).length) →
        MusicIndexer.getMusicQuery q = .error .nullPool) ∧
      ((∀ kind, (p.ids kind).length ≤ 1) →
        ∃ t q', p.sortBy = .string t ∧ MusicIndexer.getMusicQuery q = .ok (0, q') ∧
          RequestRead column p count [] (sortErrors t) q q') := by
  have htexts : textPairs p = [] := by
    rw [textPairs, hplain.searchFields_eq_nil]
    rfl
  obtain ⟨t, ht, hsort, hvalues⟩ := hplain.sortValues_eq
  obtain ⟨hterms, hmissing⟩ := hserves.sortItems ht
  obtain ⟨hfault, htaken⟩ := hserves.request hplain.simple htexts hknown hwords
  refine ⟨hfault, fun hle => ?_⟩
  obtain ⟨q', hcall, hread⟩ := htaken hle
  rw [hvalues, List.flatMap_singleton, List.flatMap_singleton, hterms, hmissing] at hread
  exact ⟨t, q', hsort, hcall, hread⟩

end Server

open Browser in
/-- Whatever is clicked, the server takes a request of the browser exactly when no list has two
identifiers in it: then the conditions are the identifiers, and nothing is sorted. -/
theorem browser_requests {ρ : Type} {idOf : PaneKind → ρ → ℕ} {l : List (BrowserAction ρ)}
    {b : Browser ρ} (hrun : Run (Fires (next idOf)) empty l b) {p : QueryParameters}
    (hp : p ∈ b.requests) (hostname : Word) (count : ℕ) {lib : Library}
    {query : MusicIndexer.DbQuery lib.strnatcasecmp} {column : PaneKind → ColumnTable}
    (hserves : ServesIds query column) {q : MusicIndexer.MusicQuery lib}
    (hknown : q.known = some query)
    (hwords : q.queryNouns = (pathWords (setUrl hostname count p)).map textString) :
    ((∃ kind, 2 ≤ (p.ids kind).length) →
        MusicIndexer.getMusicQuery q = .error .nullPool) ∧
      ((∀ kind, (p.ids kind).length ≤ 1) →
        ∃ t q', p.sortBy = .string t ∧ MusicIndexer.getMusicQuery q = .ok (0, q') ∧
          RequestRead column p count [] (sortErrors t) q q') :=
  (plain_requests hrun p hp).request hserves hknown hwords

def idsQuery : MusicIndexer.DbQuery compareWords := listedQuery (urlKinds.map idColumn)

theorem servesIds_idsQuery : @ServesIds (listedLibrary idsQuery) idsQuery idColumn where
  ids kind := by cases kind <;> rfl
  numbers _ := .inl rfl
  sortBy := rfl
  limit := rfl
  offset := rfl
  unnamed := ⟨rfl, rfl⟩

open Browser in
/-- A song is selected, and a playlist is made from it. -/
theorem browser_requests_song : ∃ p, p.ids .song = [3] ∧ ∃ t q',
    MusicIndexer.getMusicQuery (receivedQuery idsQuery exampleHost 0 p) = .ok (0, q') ∧
      RequestRead idColumn p 0 [] (sortErrors t) (receivedQuery idsQuery exampleHost 0 p) q' := by
  have hrun : (execute (next fun _ n => n) empty
      [.addTable .song, .receive 0 [.parsed 3], .click 0 0]).map
        (fun b => urlKinds.map b.newPlaylistFromSelection.ids) = some [[], [], [3]] := by
    decide +kernel
  obtain ⟨b, hb, hids⟩ := Option.map_eq_some_iff.mp hrun
  have hmem : b.newPlaylistFromSelection ∈ b.requests :=
    List.mem_append_right _ (List.mem_singleton.mpr rfl)
  have hplain := b.plain_newPlaylistFromSelection
  have hle : ∀ kind, (b.newPlaylistFromSelection.ids kind).length ≤ 1 := by
    simp only [urlKinds, List.map_cons, List.map_nil, List.cons.injEq, and_true] at hids
    obtain ⟨halbum, hartist, hsong⟩ := hids
    intro kind
    cases kind with
    | artist => rw [hartist]; exact Nat.zero_le 1
    | album => rw [halbum]; exact Nat.zero_le 1
    | song => rw [hsong]; exact le_rfl
  have hknown := hplain.simple.known b.type_newPlaylistFromSelection idsQuery exampleHost 0
  obtain ⟨t, q', -, hcall, hread⟩ := (browser_requests (run_of_execute hb) hmem exampleHost 0
    servesIds_idsQuery hknown rfl).2 hle
  exact ⟨_, (List.cons.inj (List.cons.inj (List.cons.inj hids).2).2).1, t, q', hcall, hread⟩

end ModMp
