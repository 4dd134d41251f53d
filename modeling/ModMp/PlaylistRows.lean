import ModMp.PlaylistUi

/-!
# The rows of a playlist and its songs

The songs of a playlist are those of the request with which they were loaded, and outside of a
search the rows are those of the last load of the query. The two are the same unless the query is
loaded again for a search that has ended, which leaves the songs as they are, with a sort list that
has changed in the meantime, or a load has no response with songs. A shuffle moves the songs and not
the rows; it is known by `shuffled` only if a song of the playlist is playing.
-/

namespace ModMp
open Runs

deriving instance DecidableEq for SortColumn, SortBy

variable {ρ κ : Type}

def answerRows (responses : List (Option (List ρ))) : List ρ :=
  responses.flatMap (fun response => response.getD [])

namespace PlaylistUi

/-- The songs that the server has for the query with a sort list. -/
def rowsFor (server : QueryParameters → List (Option (List ρ))) (s : PlaylistUi ρ)
    (sortBy : SortBy) : List ρ := answerRows (server { s.query.parameters with sortBy := sortBy })

/-- The value of `sort_by` in a request for the songs. -/
def querySort (s : PlaylistUi ρ) : SortBy := (s.query.request s.sort).sortBy

theorem request_eq (s : PlaylistUi ρ) :
    s.query.request s.sort = { s.query.parameters with sortBy := s.querySort } := by
  unfold querySort PlaylistQuery.request
  split_ifs <;> rfl

/-- The last condition is what the user sees. -/
structure Consistent (server : QueryParameters → List (Option (List ρ))) (s : PlaylistUi ρ) :
    Prop where
  songs : ∃ songs, s.songs = .array songs ∧ songs.map DataElem.row = s.rowsFor server s.songsSort
  shown : s.searchResults = none → s.songsTable.shown = s.rowsFor server s.songsSort

/-- The parameters of the first request that an action makes. -/
def requested (s : PlaylistUi ρ) : PlaylistAction ρ → Option QueryParameters
  | .sort click =>
      (TableSort.click ⟨s.songsTable.columns, s.sort⟩ click).map (fun r =>
        if s.searchResults.isNone then
          PlaylistQuery.request { s.query with sharesSort := true } r.sort
        else PlaylistQuery.request { s.searchQuery with sharesSort := true } r.sort)
  | .search column value =>
      s.songsTable.columns[column]?.bind (fun col =>
        if 0 < value.length then
          let s := s.setSearchText col.friendlyName (some (text "*" ++ value ++ text "*"))
          some (s.searchQuery.request s.sort)
        else if s.endsSearch col.friendlyName then some (s.query.request s.sort)
        else none)
  | _ => none

def Answered (responses : List (Option (List ρ))) : Prop := ∃ response ∈ responses, response.isSome

/-- The songs come from requests with the sort list of the query, unless they are shuffled. -/
def SongsSorted (s : PlaylistUi ρ) : Prop := s.shuffled = false → s.querySort = s.songsSort

instance (s : PlaylistUi ρ) : Decidable s.SongsSorted := inferInstanceAs (Decidable (_ → _))

/-- The search is not ended while the sort list of the query is not that of the songs. -/
def SortKept (s : PlaylistUi ρ) : PlaylistAction ρ → Prop
  | .search column value => ∀ col ∈ s.songsTable.columns[column]?, value = [] →
      s.endsSearch col.friendlyName = true → s.SongsSorted
  | _ => True

/-- The songs of this playlist are shuffled only while one of them is playing. -/
def ShufflesPlaying (s : PlaylistUi ρ) : PlaylistAction ρ → Prop
  | .shuffle _ => s.otherPlaylist.isSome ∨ (s.songs.entry s.playingIndex).join.isSome
  | _ => True

structure Orderly (server : QueryParameters → List (Option (List ρ))) (s : PlaylistUi ρ)
    (a : PlaylistAction ρ) : Prop where
  sort : s.SortKept a
  answered : ∀ p ∈ s.requested a, Answered (server p)
  playing : s.ShufflesPlaying a

instance (responses : List (Option (List ρ))) : Decidable (Answered responses) :=
  inferInstanceAs (Decidable (∃ response ∈ responses, _))

instance (s : PlaylistUi ρ) (a : PlaylistAction ρ) : Decidable (s.SortKept a) :=
  match a with
  | .search _ _ => inferInstanceAs (Decidable (∀ col ∈ (_ : Option Column), _))
  | .sort _ => inferInstanceAs (Decidable True)
  | .play _ _ => inferInstanceAs (Decidable True)
  | .playerChange _ => inferInstanceAs (Decidable True)
  | .shuffle _ => inferInstanceAs (Decidable True)

instance (s : PlaylistUi ρ) (a : PlaylistAction ρ) : Decidable (s.ShufflesPlaying a) :=
  match a with
  | .search _ _ => inferInstanceAs (Decidable True)
  | .sort _ => inferInstanceAs (Decidable True)
  | .play _ _ => inferInstanceAs (Decidable True)
  | .playerChange _ => inferInstanceAs (Decidable True)
  | .shuffle _ => inferInstanceAs (Decidable (_ ∨ _))

instance (server : QueryParameters → List (Option (List ρ))) (s : PlaylistUi ρ)
    (a : PlaylistAction ρ) : Decidable (s.Orderly server a) :=
  decidable_of_iff (s.SortKept a ∧ (∀ p ∈ s.requested a, Answered (server p)) ∧
    s.ShufflesPlaying a) ⟨fun h => ⟨h.1, h.2.1, h.2.2⟩, fun h => ⟨h.sort, h.answered, h.playing⟩⟩

end PlaylistUi

theorem filterMap_getElem?_range {α : Type} (l : List α) :
    (List.range l.length).filterMap (fun i => l[i]?) = l := by
  induction l with
  | nil => rfl
  | cons a l ih =>
      rw [List.length_cons, List.range_succ_eq_map, List.filterMap_cons_some
        (List.getElem?_cons_zero), List.filterMap_map]
      exact congrArg (a :: ·) ih

theorem SongArray.shuffle_array (random : ℕ → ℕ) {songs : List (DataElem ρ)} (hne : songs ≠ []) :
    ∃ moved, (SongArray.array songs).shuffle random = .array moved ∧
      (moved.map DataElem.row).Perm (songs.map DataElem.row) := by
  have hdraws : ∀ i, min (random i) i ≤ i := fun i => min_le_right _ _
  have hrange : List.range songs.length ≠ [] := by
    rw [ne_eq, List.range_eq_nil, List.length_eq_zero_iff]
    exact hne
  have hperm := Shuffles.perm_shuffleInto hdraws [] (List.range songs.length)
  rw [List.nil_append] at hperm
  have hplaylist := Playlist.shuffle_playlist hdraws hrange
    (fun i => songs[i]?.bind DataElem.shuffledIndex)
  rw [shuffle, hplaylist, List.map_map, if_pos, List.filterMap_map]
  · refine ⟨_, rfl, ?_⟩
    have hrows := congrArg (List.map DataElem.row) (filterMap_getElem?_range songs)
    rw [List.map_filterMap] at hrows
    rw [List.map_filterMap, ← hrows]
    refine List.Perm.trans (List.Perm.of_eq (List.filterMap_congr fun i _ => ?_))
      (hperm.filterMap _)
    dsimp only [Function.comp_apply, id, Option.bind_some]
    rw [Option.map_map]
    rfl
  · rw [List.all_map, List.all_eq_true]
    intro i hi
    have hlt : i < songs.length := List.mem_range.mp (hperm.mem_iff.mp hi)
    simp [List.getElem?_eq_getElem hlt]

theorem SongArray.change_array [DecidableEq κ] (songId : ρ → κ) (songs new : List (DataElem ρ))
    (playingIndex : Option ℤ) : ∃ index, (SongArray.array songs).change songId (.array new)
      playingIndex = (.array new, index, (songAt songs playingIndex).isSome) := by
  have hentry : (SongArray.array songs).entry playingIndex = some (songAt songs playingIndex) := rfl
  unfold change
  rw [hentry]
  cases songAt songs playingIndex with
  | none => exact ⟨_, rfl⟩
  | some song => exact ⟨_, rfl⟩

theorem PlayedPlaylist.changeSong_spec [DecidableEq κ] (songId : ρ → κ)
    (song : Option (DataElem ρ)) (p : PlayedPlaylist ρ) (playingIndex : Option ℤ) :
    ∃ table index, table.shown = p.songsTable.shown ∧
      p.changeSong songId song playingIndex = ({ p with songsTable := table }, index) := by
  unfold changeSong
  cases p.songs.read p.searching playingIndex with
  | none => exact ⟨_, _, rfl, rfl⟩
  | some songs =>
      obtain ⟨table, hshown, hplaylist⟩ := PlayerUi.changeSong_playlist (songFields songId)
        ⟨⟨songs, p.searching, p.shuffled, p.songsTable⟩, playingIndex⟩ song
      dsimp only
      rw [hplaylist]
      exact ⟨table, _, hshown, rfl⟩

namespace PlaylistUi

variable [DecidableEq κ] {songId : ρ → κ} {server : QueryParameters → List (Option (List ρ))}
  {s s' : PlaylistUi ρ}

theorem changeSong_spec (songId : ρ → κ) (s : PlaylistUi ρ) (song : Option (DataElem ρ)) :
    ∃ table other index, table.shown = s.songsTable.shown ∧ s.changeSong songId song =
      { s with songsTable := table, otherPlaylist := other, playingIndex := index } := by
  obtain ⟨table, index, hshown, heq⟩ :=
    PlayedPlaylist.changeSong_spec songId song s.played s.playingIndex
  unfold changeSong onPlayed
  rw [heq]
  unfold played at hshown ⊢
  cases hother : s.otherPlaylist with
  | some other => exact ⟨s.songsTable, _, _, rfl, rfl⟩
  | none =>
      rw [hother] at hshown
      exact ⟨table, none, index, hshown, rfl⟩

/-- Unless the playlist is shuffled, its songs and its rows are right. -/
def Sane (server : QueryParameters → List (Option (List ρ))) (s : PlaylistUi ρ) : Prop :=
  s.shuffled = false → s.Consistent server

theorem Sane.changeSong (h : s.Sane server) (song : Option (DataElem ρ)) :
    (s.changeSong songId song).Sane server := by
  obtain ⟨table, other, index, hshown, heq⟩ := changeSong_spec songId s song
  rw [heq]
  intro hshuffled
  exact ⟨(h hshuffled).songs, fun hsearch => hshown.trans ((h hshuffled).shown hsearch)⟩

theorem Sane.changeCurrent (h : s.Sane server) : (s.changeCurrent songId).Sane server := by
  unfold PlaylistUi.changeCurrent
  cases s.songs.entry s.playingIndex with
  | none => exact h
  | some song => exact h.changeSong song

theorem Sane.songs (h : s.Sane server) (hshuffled : s.shuffled = false) :
    ∃ songs, s.songs = .array songs ∧ songs.map DataElem.row = s.rowsFor server s.songsSort :=
  (h hshuffled).songs

theorem Sane.shuffle (h : s.Sane server) {random : ℕ → ℕ}
    (hplaying : s.ShufflesPlaying (.shuffle random)) :
    (s.onPlayed (PlayedPlaylist.shuffle songId random)).Sane server := by
  unfold onPlayed
  cases hother : s.otherPlaylist with
  | some other => exact fun hshuffled => ⟨(h hshuffled).songs, (h hshuffled).shown⟩
  | none =>
      intro hshuffled
      rw [played, hother, Option.getD_none] at hshuffled
      obtain ⟨hbefore, hreturned⟩ := Bool.or_eq_false_iff.mp hshuffled
      obtain ⟨songs, hsongs, -⟩ := (h hbefore).songs
      have hsong : (songAt songs s.playingIndex).isSome = true := by
        have hentry := hplaying.resolve_left (by rw [hother]; nofun)
        rwa [hsongs] at hentry
      have hne : songs ≠ [] := by
        rintro rfl
        cases s.playingIndex <;> simp [songAt] at hsong
      obtain ⟨moved, hmoved, -⟩ := SongArray.shuffle_array random hne
      obtain ⟨index, heq⟩ := SongArray.change_array songId songs moved s.playingIndex
      change ((s.songs.change songId (s.songs.shuffle random) s.playingIndex).2.2) = false
        at hreturned
      rw [hsongs, hmoved, heq, hsong] at hreturned
      cases hreturned

end PlaylistUi

namespace PlaylistUi

variable [DecidableEq κ] {songId : ρ → κ} {server : QueryParameters → List (Option (List ρ))}
  {s s' : PlaylistUi ρ}

/-- The arrows are left alone during a search. -/
def SortOutside (s : PlaylistUi ρ) : PlaylistAction ρ → Prop
  | .sort _ => s.searchResults = none
  | _ => True

theorem SongsSorted.changeSong (h : s.SongsSorted) (song : Option (DataElem ρ)) :
    (s.changeSong songId song).SongsSorted := by
  obtain ⟨table, other, index, -, heq⟩ := changeSong_spec songId s song
  rw [heq]
  exact h

theorem SongsSorted.changeCurrent (h : s.SongsSorted) : (s.changeCurrent songId).SongsSorted := by
  unfold PlaylistUi.changeCurrent
  cases s.songs.entry s.playingIndex with
  | none => exact h
  | some song => exact h.changeSong song

theorem SongsSorted.completeQuery (h : s.onComplete = .changeSong → s.SongsSorted) :
    (s.completeQuery songId).SongsSorted := by
  have hset : ∀ songs index, SongsSorted { s with
      songs := songs
      songsSort := s.querySort
      playingIndex := index } := fun _ _ _ => rfl
  unfold PlaylistUi.completeQuery changePlaylistSongs
  split
  · exact hset _ s.playingIndex
  · dsimp only
    split_ifs with hshuffled
    · exact (hset _ _).changeCurrent
    · exact hset _ _
    · split
      · apply changeCurrent
        exact fun h => absurd h hshuffled
      · exact fun h => absurd h hshuffled
  · next honComplete => exact (h honComplete).changeCurrent

theorem SongsSorted.next {a : PlaylistAction ρ} (h : s.SongsSorted) (houtside : s.SortOutside a)
    (hs : s.next songId server a = some s') : s'.SongsSorted := by
  cases a with
  | sort click =>
      obtain ⟨r, -, rfl⟩ := Option.map_eq_some_iff.mp hs
      dsimp only
      rw [if_pos (Option.isNone_iff_eq_none.mpr houtside)]
      exact completeQuery nofun
  | search column value =>
      obtain ⟨col, -, hs⟩ := Option.bind_eq_some_iff.mp hs
      obtain ⟨-, hs⟩ := Option.ite_none_right_eq_some.mp hs
      cases hs
      unfold searchBoxChange
      split_ifs
      · exact h
      · exact completeQuery (fun _ => h)
      · exact h
  | play row found =>
      obtain ⟨row, -, rfl⟩ := Option.map_eq_some_iff.mp hs
      have hplays : SongsSorted { s with otherPlaylist := none } := h
      unfold songClick
      dsimp only
      split
      · split
        · split_ifs
          · exact hplays.changeSong _
          · exact h
        · exact h
      · exact h
  | playerChange song =>
      cases hs
      exact h.changeSong _
  | shuffle random =>
      cases hs
      unfold onPlayed played
      split
      · exact h
      · next hother =>
        rw [hother]
        exact fun hshuffled => h (Bool.or_eq_false_iff.mp hshuffled).1

/-- A run without clicks on arrows during a search ends each search with the order of the songs. -/
theorem orderly_of_sortOutside {parameters : QueryParameters} {playingIndex : Option ℤ}
    {otherPlaylist : Option (PlayedPlaylist ρ)} {l : List (PlaylistAction ρ)}
    (h : Run (fun s a s' => (s.SortOutside a ∧ (∀ p ∈ s.requested a, Answered (server p)) ∧
        s.ShufflesPlaying a) ∧ Fires (next songId server) s a s')
      (create songId server parameters playingIndex otherPlaylist) l s) :
    Run (fun s a s' => s.Orderly server a ∧ Fires (next songId server) s a s')
      (create songId server parameters playingIndex otherPlaylist) l s := by
  have hkept : ∀ {s : PlaylistUi ρ} a, s.SongsSorted → s.SortKept a := by
    intro s a hs
    cases a with
    | search column value => exact fun _ _ _ _ => hs
    | sort click => trivial
    | play row found => trivial
    | playerChange song => trivial
    | shuffle random => trivial
  have hstrong := h.strengthen (I := SongsSorted)
    (SongsSorted.completeQuery (fun heq => by cases heq))
    (fun s a s' hs hstep => hs.next hstep.1.1 hstep.2)
  refine hstrong.mono (fun s a s' hstep => ?_)
  obtain ⟨hs, ⟨-, hanswered, hplaying⟩, hnext⟩ := hstep
  exact ⟨⟨hkept a hs, hanswered, hplaying⟩, hnext⟩

end PlaylistUi

def twoRows (p : QueryParameters) : List (Option (List ℕ)) :=
  match p.sortBy with
  | .columns columns => if columns.length < 5 then [some [1, 2]] else [some [2, 1]]
  | _ => [some [1, 2]]

def playlistOfTwo : PlaylistUi ℕ := .create id twoRows defaultParameters (some 0) none

end ModMp
