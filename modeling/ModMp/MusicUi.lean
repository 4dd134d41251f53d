import ModMp.BrowserSelection
import ModMp.PlaylistRequests

/-!
# The page: the browser, the tabs and one player

Each tab has a playlist, and the playlist of one tab is that of the player. The button `+` makes a
playlist from the selection of the browser, in a new tab. Only the playlist that is displayed can be
clicked, but the player changes the song and shuffles the songs of its own playlist at any time. The
two kinds of objects are the rows of the browser and the songs. The responses that a playlist gets
are part of the action that asks for them. Names of tabs and the sizes of the parts are left out.
-/

namespace ModMp
open Runs Segments MusicIndexer CLib

/-- The class `current_tab` of the button, and whether the playlist is displayed. -/
structure Tab (ρ : Type) where
  playlist : PlaylistUi ρ
  current : Bool
  displayed : Bool

def Tab.show {ρ : Type} (tab : Tab ρ) : Tab ρ := { tab with current := true, displayed := true }

def Tab.hide {ρ : Type} (tab : Tab ρ) : Tab ρ := { tab with current := false, displayed := false }

/-- `player` is the tab whose playlist is that of the player. -/
structure MusicUi (β ρ : Type) where
  browser : Browser β
  tabs : List (Tab ρ)
  currentTab : Option ℕ
  player : ℕ
  playingIndex : Option ℤ

/-- What happens in the browser, a click on `+` and one on the button of a tab, and what happens to
the playlist of the current tab or to that of the player. -/
inductive UiAction (β ρ : Type)
  | browser (a : BrowserAction β)
  | newTab
  | tabClick (tab : ℕ)
  | playlist (a : PlaylistAction ρ)

/-- A playlist after the player has done something to it. -/
def PlaylistUi.takeBack {ρ : Type} (s : PlaylistUi ρ) (p : PlayedPlaylist ρ) : PlaylistUi ρ :=
  { s with songs := p.songs, shuffled := p.shuffled, songsTable := p.songsTable }

namespace MusicUi
variable {β ρ κ : Type} [DecidableEq κ]

def hideCurrent (u : MusicUi β ρ) : List (Tab ρ) :=
  match u.currentTab with
  | some current => u.tabs.modify current Tab.hide
  | none => u.tabs

def addTab (u : MusicUi β ρ) (playlist : PlaylistUi ρ) : MusicUi β ρ :=
  { u with
    tabs := u.hideCurrent ++ [Tab.show ⟨playlist, false, false⟩]
    currentTab := some u.tabs.length }

/-- Without a current tab this throws. -/
def tabClick (u : MusicUi β ρ) (tab : ℕ) : Option (MusicUi β ρ) :=
  if tab < u.tabs.length ∧ u.currentTab.isSome then
    some { u with tabs := u.hideCurrent.modify tab Tab.show, currentTab := some tab }
  else none

def shownPlaylist (u : MusicUi β ρ) : Option (PlayedPlaylist ρ) :=
  u.tabs[u.player]?.map (fun tab => tab.playlist.shownPlaylist)

def view (u : MusicUi β ρ) (j : ℕ) (playlist : PlaylistUi ρ) : PlaylistUi ρ :=
  { playlist with
    playingIndex := u.playingIndex
    otherPlaylist := if u.player = j then none else u.shownPlaylist }

def setPlaylist (u : MusicUi β ρ) (j : ℕ) (playlist : PlaylistUi ρ) : List (Tab ρ) :=
  u.tabs.modify j (fun tab => { tab with playlist := playlist })

/-- What the playlist has done to itself and to the player is taken over. -/
def takeOver (u : MusicUi β ρ) (j : ℕ) (playlist : PlaylistUi ρ) : MusicUi β ρ :=
  match playlist.otherPlaylist with
  | some other =>
      { u with
        tabs := (u.setPlaylist j playlist).modify u.player (fun tab =>
          { tab with playlist := tab.playlist.takeBack other })
        playingIndex := playlist.playingIndex }
  | none =>
      { u with
        tabs := u.setPlaylist j playlist
        player := j
        playingIndex := playlist.playingIndex }

variable (idOf : PaneKind → β → ℕ) (songId : ρ → κ)
  (server : QueryParameters → List (Option (List ρ)))

def newTab (u : MusicUi β ρ) : MusicUi β ρ :=
  u.addTab (PlaylistUi.create songId server u.browser.newPlaylistFromSelection u.playingIndex
    u.shownPlaylist)

def next (u : MusicUi β ρ) : UiAction β ρ → Option (MusicUi β ρ)
  | .browser a => (u.browser.next idOf a).map (fun browser => { u with browser := browser })
  | .newTab => some (u.newTab songId server)
  | .tabClick tab => u.tabClick tab
  | .playlist a =>
      u.currentTab.bind (fun j => u.tabs[j]?.bind (fun tab =>
        ((u.view j tab.playlist).next songId server a).map (u.takeOver j)))

/-- The page as `init` leaves it, with the playlist of all songs. -/
def init : MusicUi β ρ :=
  addTab ⟨Browser.empty, [], none, 0, some 0⟩
    (PlaylistUi.create songId server defaultParameters (some 0) none)

end MusicUi

def PlaylistAction.Shuffles {ρ : Type} : PlaylistAction ρ → Prop
  | .shuffle _ => True
  | _ => False

def UiAction.Shuffles {β ρ : Type} : UiAction β ρ → Prop
  | .playlist a => a.Shuffles
  | _ => False

section Shuffle
variable {ρ κ : Type}

/-- The same rows and the same songs, and the songs in the same order unless they are shuffled. -/
structure SamePlayed (shuffles : Prop) (p q : PlayedPlaylist ρ) : Prop where
  columns : q.songsTable.columns = p.songsTable.columns
  shown : q.songsTable.shown = p.songsTable.shown
  songs : q.songs.rows.Perm p.songs.rows
  unshuffled : ¬ shuffles → q.songs = p.songs ∧ q.shuffled = p.shuffled

namespace SamePlayed
variable {shuffles : Prop} {p q r : PlayedPlaylist ρ}

theorem refl (p : PlayedPlaylist ρ) : SamePlayed shuffles p p :=
  ⟨rfl, rfl, .refl _, fun _ => ⟨rfl, rfl⟩⟩

theorem trans (h : SamePlayed shuffles p q) (h' : SamePlayed shuffles q r) :
    SamePlayed shuffles p r := by
  refine ⟨h'.columns.trans h.columns, h'.shown.trans h.shown, h'.songs.trans h.songs, ?_⟩
  intro hnone
  obtain ⟨hsongs, hflag⟩ := h.unshuffled hnone
  obtain ⟨hsongs', hflag'⟩ := h'.unshuffled hnone
  exact ⟨hsongs'.trans hsongs, hflag'.trans hflag⟩

theorem changeSong [DecidableEq κ] (songId : ρ → κ) (song : Option (DataElem ρ))
    (p : PlayedPlaylist ρ) (playingIndex : Option ℤ) :
    SamePlayed shuffles p (p.changeSong songId song playingIndex).1 := by
  have hcolumns := PlayedPlaylist.changeSong_columns songId song p playingIndex
  obtain ⟨table, index, hshown, heq⟩ :=
    PlayedPlaylist.changeSong_spec songId song p playingIndex
  rw [heq] at hcolumns ⊢
  exact ⟨hcolumns, hshown, .refl _, fun _ => ⟨rfl, rfl⟩⟩

end SamePlayed

theorem SongArray.rows_shuffle (random : ℕ → ℕ) (songs : SongArray ρ) :
    (songs.shuffle random).rows.Perm songs.rows := by
  cases songs with
  | undefined => exact .refl _
  | hole => exact .refl _
  | array songs =>
      rcases eq_or_ne songs [] with rfl | hne
      · exact .refl _
      · obtain ⟨moved, hmoved, hperm⟩ := SongArray.shuffle_array random hne
        rw [hmoved]
        exact hperm

theorem SongArray.change_songs [DecidableEq κ] (songId : ρ → κ) (songs new : SongArray ρ)
    (playingIndex : Option ℤ) : (songs.change songId new playingIndex).1 = songs ∨
      (songs.change songId new playingIndex).1 = new := by
  unfold change
  split
  · exact .inl rfl
  · exact .inr rfl
  · exact .inr rfl

theorem SamePlayed.shuffle [DecidableEq κ] (songId : ρ → κ) (random : ℕ → ℕ) {shuffles : Prop}
    (hshuffles : shuffles) (p : PlayedPlaylist ρ) (playingIndex : Option ℤ) :
    SamePlayed shuffles p (p.shuffle songId random playingIndex).1 := by
  refine ⟨rfl, rfl, ?_, fun hnone => absurd hshuffles hnone⟩
  change ((p.songs.change songId (p.songs.shuffle random) playingIndex).1).rows.Perm _
  rcases SongArray.change_songs songId p.songs (p.songs.shuffle random) playingIndex with
    heq | heq
  · rw [heq]
  · rw [heq]
    exact SongArray.rows_shuffle random p.songs

end Shuffle

namespace PlaylistUi
variable {ρ κ : Type} {shuffles : Prop} {s t : PlaylistUi ρ}

/-- Another playlist, if the player plays one, keeps its rows and its songs. -/
def KeepsOther (shuffles : Prop) (s t : PlaylistUi ρ) : Prop :=
  ∀ p, t.otherPlaylist = some p →
    ∃ p₀, s.otherPlaylist = some p₀ ∧ SamePlayed shuffles p₀ p

namespace KeepsOther

theorem of_eq (h : t.otherPlaylist = s.otherPlaylist) : KeepsOther shuffles s t :=
  fun p hp => ⟨p, h ▸ hp, .refl p⟩

theorem of_none (h : t.otherPlaylist = none) : KeepsOther shuffles s t := by
  intro p hp
  cases h.symm.trans hp

theorem onPlayed (h : KeepsOther shuffles s t)
    {f : PlayedPlaylist ρ → Option ℤ → PlayedPlaylist ρ × Option ℤ}
    (hf : ∀ p index, SamePlayed shuffles p (f p index).1) :
    KeepsOther shuffles s (t.onPlayed f) := by
  intro p hp
  have hsame := hf t.played t.playingIndex
  unfold PlaylistUi.onPlayed at hp
  unfold played at hp hsame
  cases hother : t.otherPlaylist with
  | none =>
      rw [hother] at hp
      cases hp
  | some other =>
      rw [hother] at hp hsame
      cases hp
      obtain ⟨p₀, hp₀, hbefore⟩ := h other hother
      exact ⟨p₀, hp₀, hbefore.trans hsame⟩

variable [DecidableEq κ]

theorem changeSong (h : KeepsOther shuffles s t) (songId : ρ → κ)
    (song : Option (DataElem ρ)) : KeepsOther shuffles s (t.changeSong songId song) :=
  h.onPlayed (SamePlayed.changeSong songId song)

theorem changeCurrent (h : KeepsOther shuffles s t) (songId : ρ → κ) :
    KeepsOther shuffles s (t.changeCurrent songId) := by
  unfold PlaylistUi.changeCurrent
  cases t.songs.entry t.playingIndex with
  | none => exact h
  | some song => exact h.changeSong songId song

theorem completeQuery (h : KeepsOther shuffles s t) (songId : ρ → κ) :
    KeepsOther shuffles s (t.completeQuery songId) := by
  have hsongs : ∀ songs songsSort index results, KeepsOther shuffles s { t with
      songs := songs
      songsSort := songsSort
      playingIndex := index
      query := { t.query with results := results } } := fun _ _ _ _ => h
  unfold PlaylistUi.completeQuery changePlaylistSongs
  split
  · exact h
  · dsimp only
    split_ifs
    · exact (hsongs _ _ _ t.query.results).changeCurrent songId
    · exact hsongs _ _ _ t.query.results
    · split
      · exact (hsongs _ t.songsSort t.playingIndex _).changeCurrent songId
      · exact h
  · exact h.changeCurrent songId

theorem loadQuery (h : KeepsOther shuffles s t) (songId : ρ → κ)
    (server : QueryParameters → List (Option (List ρ))) :
    KeepsOther shuffles s (t.loadQuery songId server) := by
  unfold PlaylistUi.loadQuery
  apply completeQuery
  exact h

theorem next {songId : ρ → κ} {server : QueryParameters → List (Option (List ρ))}
    {a : PlaylistAction ρ} (ha : a.Shuffles → shuffles) (hs : s.next songId server a = some t) :
    KeepsOther shuffles s t := by
  cases a with
  | sort click =>
      obtain ⟨r, -, rfl⟩ := Option.map_eq_some_iff.mp hs
      dsimp only
      split_ifs
      · exact loadQuery (of_eq rfl) songId server
      · exact of_eq rfl
  | search column value =>
      obtain ⟨col, -, hs⟩ := Option.bind_eq_some_iff.mp hs
      obtain ⟨-, hs⟩ := Option.ite_none_right_eq_some.mp hs
      cases hs
      unfold searchBoxChange
      split_ifs
      · exact of_eq rfl
      · exact loadQuery (of_eq rfl) songId server
      · exact of_eq rfl
  | play row found =>
      obtain ⟨row, -, rfl⟩ := Option.map_eq_some_iff.mp hs
      have hnone : KeepsOther shuffles s { s with otherPlaylist := none } := of_none rfl
      unfold songClick
      dsimp only
      split
      · split
        · split_ifs
          · exact hnone.changeSong songId _
          · exact hnone
        · exact hnone
      · exact hnone
  | playerChange song =>
      cases hs
      exact (of_eq rfl).changeSong songId _
  | shuffle random =>
      cases hs
      exact (of_eq rfl).onPlayed (SamePlayed.shuffle songId random (ha trivial))

end KeepsOther

/-- The same playlist, but for the classes of its rows and for a shuffle of its songs. -/
structure SameRows (shuffles : Prop) (s t : PlaylistUi ρ) : Prop where
  eq : t = s.takeBack t.shownPlaylist
  played : SamePlayed shuffles s.shownPlaylist t.shownPlaylist

theorem SameRows.refl (s : PlaylistUi ρ) : SameRows shuffles s s := ⟨rfl, .refl _⟩

theorem SameRows.trans {u : PlaylistUi ρ} (h : SameRows shuffles s t)
    (h' : SameRows shuffles t u) : SameRows shuffles s u := by
  refine ⟨?_, h.played.trans h'.played⟩
  have heq := h'.eq
  rw [h.eq] at heq
  exact heq

theorem SameRows.takeBack {p : PlayedPlaylist ρ} (h : SamePlayed shuffles s.shownPlaylist p) :
    SameRows shuffles s (s.takeBack p) :=
  ⟨rfl, h.columns, h.shown, h.songs, h.unshuffled⟩

theorem SameRows.sameQueries (h : SameRows shuffles s t) : SameQueries s t := by
  have hcolumns : t.songsTable.columns = s.songsTable.columns := h.played.columns
  rw [h.eq] at hcolumns ⊢
  exact ⟨hcolumns, rfl, rfl, rfl, rfl, id⟩

end PlaylistUi

namespace MusicUi
open PlaylistUi
variable {β ρ κ : Type} [DecidableEq κ] {u u' : MusicUi β ρ} {tab : Tab ρ} {i j : ℕ}
  {shuffles : Prop}

omit [DecidableEq κ] in
theorem tabs_hideCurrent (u : MusicUi β ρ) (i : ℕ) :
    u.hideCurrent[i]? =
      u.tabs[i]?.map (fun tab => if u.currentTab = some i then tab.hide else tab) := by
  unfold hideCurrent
  cases u.currentTab with
  | none =>
      simp only [reduceCtorEq, if_false]
      exact (congrFun Option.map_id _).symm
  | some current =>
      rw [List.getElem?_modify]
      simp only [Option.some.injEq]
      rfl

omit [DecidableEq κ] in
theorem length_hideCurrent (u : MusicUi β ρ) : u.hideCurrent.length = u.tabs.length := by
  unfold hideCurrent
  cases u.currentTab with
  | none => rfl
  | some current => exact List.length_modify _ _ _

/-- The tab is left with its playlist by what happens to the tabs. -/
def Kept (shuffles : Prop) (tab : Tab ρ) (l : List (Tab ρ)) (i : ℕ) : Prop :=
  ∃ tab', l[i]? = some tab' ∧ SameRows shuffles tab.playlist tab'.playlist

omit [DecidableEq κ] in
theorem kept_hideCurrent (hi : u.tabs[i]? = some tab) : Kept shuffles tab u.hideCurrent i := by
  refine ⟨_, by rw [tabs_hideCurrent, hi]; rfl, ?_⟩
  split_ifs <;> exact .refl _

omit [DecidableEq κ] in
theorem kept_addTab (hi : u.tabs[i]? = some tab) (playlist : PlaylistUi ρ) :
    Kept shuffles tab (u.addTab playlist).tabs i := by
  obtain ⟨tab', htab', hsame⟩ : Kept shuffles tab u.hideCurrent i := kept_hideCurrent hi
  have hlt : i < u.hideCurrent.length := (List.getElem?_eq_some_iff.mp htab').1
  exact ⟨tab', (List.getElem?_append_left hlt).trans htab', hsame⟩

omit [DecidableEq κ] in
theorem kept_tabClick (hi : u.tabs[i]? = some tab) (h : u.tabClick j = some u') :
    Kept shuffles tab u'.tabs i := by
  obtain ⟨-, hu⟩ := Option.ite_none_right_eq_some.mp h
  cases hu
  obtain ⟨tab', htab', hsame⟩ : Kept shuffles tab u.hideCurrent i := kept_hideCurrent hi
  refine ⟨_, by rw [List.getElem?_modify, htab']; rfl, ?_⟩
  split_ifs <;> exact hsame

omit [DecidableEq κ] in
theorem tabs_takeOver (hj : u.tabs[j]? = some tab) {s : PlaylistUi ρ}
    (hkeeps : KeepsOther shuffles (u.view j tab.playlist) s) :
    (u.takeOver j s).tabs[j]? = some { tab with playlist := s } ∧
      ∀ i other, i ≠ j → u.tabs[i]? = some other →
        Kept shuffles other (u.takeOver j s).tabs i := by
  have hset : (u.setPlaylist j s)[j]? = some { tab with playlist := s } := by
    rw [setPlaylist, List.getElem?_modify_eq, hj]
    rfl
  have hrest : ∀ i, i ≠ j → (u.setPlaylist j s)[i]? = u.tabs[i]? := by
    intro i hi
    rw [setPlaylist, List.getElem?_modify_ne _ _ (Ne.symm hi)]
  unfold takeOver
  cases hother : s.otherPlaylist with
  | none =>
      refine ⟨hset, fun i other hi htab => ⟨other, ?_, .refl _⟩⟩
      exact (hrest i hi).trans htab
  | some p =>
      obtain ⟨p₀, hp₀, hsame⟩ := hkeeps p hother
      obtain ⟨hplayer, hp₀⟩ := Option.ite_none_left_eq_some.mp hp₀
      obtain ⟨playing, hplaying, rfl⟩ := Option.map_eq_some_iff.mp hp₀
      refine ⟨(List.getElem?_modify_ne _ _ hplayer).trans hset, fun i other hi htab => ?_⟩
      by_cases heq : u.player = i
      · subst heq
        cases hplaying.symm.trans htab
        refine ⟨{ playing with playlist := playing.playlist.takeBack p }, ?_, .takeBack hsame⟩
        dsimp only
        rw [List.getElem?_modify_eq, hrest _ hi, htab]
        rfl
      · exact ⟨other, (List.getElem?_modify_ne _ _ heq).trans ((hrest i hi).trans htab), .refl _⟩

variable {idOf : PaneKind → β → ℕ} {songId : ρ → κ}
  {server : QueryParameters → List (Option (List ρ))}

/-- A step keeps the rows and the queries of a tab, or it is a step of its playlist. -/
theorem next_tab {a : UiAction β ρ} (ha : a.Shuffles → shuffles)
    (h : u.next idOf songId server a = some u') (hi : u.tabs[i]? = some tab) :
    Kept shuffles tab u'.tabs i ∨ u.currentTab = some i ∧ ∃ a' s, a = .playlist a' ∧
      (u.view i tab.playlist).next songId server a' = some s ∧
      u'.tabs[i]? = some { tab with playlist := s } := by
  cases a with
  | browser a =>
      obtain ⟨browser, -, rfl⟩ := Option.map_eq_some_iff.mp h
      exact .inl ⟨tab, hi, .refl _⟩
  | newTab =>
      cases h
      exact .inl (kept_addTab hi _)
  | tabClick j => exact .inl (kept_tabClick hi h)
  | playlist a =>
      obtain ⟨j, hj, h⟩ := Option.bind_eq_some_iff.mp h
      obtain ⟨current, hcurrent, h⟩ := Option.bind_eq_some_iff.mp h
      obtain ⟨s, hs, rfl⟩ := Option.map_eq_some_iff.mp h
      obtain ⟨htab, hothers⟩ := tabs_takeOver hcurrent (KeepsOther.next ha hs)
      by_cases heq : i = j
      · subst heq
        cases hcurrent.symm.trans hi
        exact .inr ⟨hj, a, s, rfl, hs, htab⟩
      · exact .inl (hothers i tab heq hi)

/-- Exactly the current tab is displayed, and the player plays one of the tabs. -/
structure OneTab (u : MusicUi β ρ) : Prop where
  player : u.player < u.tabs.length
  current : ∃ j < u.tabs.length, u.currentTab = some j
  displayed : ∀ i tab, u.tabs[i]? = some tab →
    (tab.displayed = true ↔ u.currentTab = some i) ∧ (tab.current = true ↔ u.currentTab = some i)

omit [DecidableEq κ] in
theorem OneTab.hideCurrent (h : u.OneTab) {i : ℕ} {tab : Tab ρ}
    (hi : u.hideCurrent[i]? = some tab) : tab.displayed = false ∧ tab.current = false := by
  rw [tabs_hideCurrent] at hi
  obtain ⟨old, hold, rfl⟩ := Option.map_eq_some_iff.mp hi
  obtain ⟨hdisplayed, hcurrent⟩ := h.displayed i old hold
  split_ifs with hat
  · exact ⟨rfl, rfl⟩
  · exact ⟨Bool.eq_false_iff.mpr (mt hdisplayed.mp hat), Bool.eq_false_iff.mpr (mt hcurrent.mp hat)⟩

omit [DecidableEq κ] in
theorem oneTab_addTab (hplayer : u.player ≤ u.tabs.length)
    (hhidden : ∀ (i : ℕ) (tab : Tab ρ), u.hideCurrent[i]? = some tab →
      tab.displayed = false ∧ tab.current = false) (playlist : PlaylistUi ρ) :
    (u.addTab playlist).OneTab := by
  have hlength : (u.addTab playlist).tabs.length = u.tabs.length + 1 := by
    rw [addTab, List.length_append, length_hideCurrent, List.length_singleton]
  refine ⟨hlength ▸ Nat.lt_succ_of_le hplayer, ⟨_, hlength ▸ Nat.lt_succ_self _, rfl⟩, ?_⟩
  intro i tab hi
  rw [addTab, List.getElem?_append, length_hideCurrent] at hi
  have hlast : (u.addTab playlist).currentTab = some i ↔ u.tabs.length = i := Option.some_inj
  rw [hlast]
  split_ifs at hi with hlt
  · obtain ⟨hdisplayed, hcurrent⟩ := hhidden i tab hi
    rw [hdisplayed, hcurrent]
    exact ⟨iff_of_false Bool.false_ne_true (Nat.ne_of_gt hlt),
      iff_of_false Bool.false_ne_true (Nat.ne_of_gt hlt)⟩
  · rw [List.getElem?_singleton] at hi
    split_ifs at hi with hzero
    cases hi
    have heq : u.tabs.length = i :=
      Nat.le_antisymm (Nat.le_of_not_lt hlt) (Nat.sub_eq_zero_iff_le.mp hzero)
    exact ⟨iff_of_true rfl heq, iff_of_true rfl heq⟩

omit [DecidableEq κ] in
theorem OneTab.tabClick (h : u.OneTab) (hclick : u.tabClick j = some u') : u'.OneTab := by
  obtain ⟨⟨hj, -⟩, hu⟩ := Option.ite_none_right_eq_some.mp hclick
  cases hu
  have hlength : (u.hideCurrent.modify j Tab.show).length = u.tabs.length := by
    rw [List.length_modify, length_hideCurrent]
  refine ⟨hlength ▸ h.player, ⟨j, hlength ▸ hj, rfl⟩, fun i tab hi => ?_⟩
  rw [Option.some_inj]
  rw [List.getElem?_modify] at hi
  obtain ⟨old, hold, rfl⟩ := Option.map_eq_some_iff.mp hi
  obtain ⟨hdisplayed, hcurrent⟩ := h.hideCurrent hold
  split_ifs with heq
  · exact ⟨iff_of_true rfl heq, iff_of_true rfl heq⟩
  · rw [hdisplayed, hcurrent]
    exact ⟨iff_of_false Bool.false_ne_true heq, iff_of_false Bool.false_ne_true heq⟩

def flags (l : List (Tab ρ)) : List (Bool × Bool) := l.map (fun tab => (tab.displayed, tab.current))

omit [DecidableEq κ] in
theorem flags_modify {f : Tab ρ → Tab ρ}
    (hf : ∀ tab, (f tab).displayed = tab.displayed ∧ (f tab).current = tab.current)
    (l : List (Tab ρ)) (i : ℕ) : flags (l.modify i f) = flags l := by
  apply List.ext_getElem?
  intro j
  rw [flags, flags, List.getElem?_map, List.getElem?_map, List.getElem?_modify, Option.map_eq_map,
    Option.map_map]
  congr 1
  funext tab
  rw [Function.comp_apply]
  split_ifs
  · rw [(hf tab).1, (hf tab).2]
  · rfl

omit [DecidableEq κ] in
theorem flags_takeOver (u : MusicUi β ρ) (j : ℕ) (s : PlaylistUi ρ) :
    flags (u.takeOver j s).tabs = flags u.tabs := by
  have hset : flags (u.setPlaylist j s) = flags u.tabs := by
    rw [setPlaylist, flags_modify]
    exact fun _ => ⟨rfl, rfl⟩
  unfold takeOver
  split
  · dsimp only
    rw [flags_modify, hset]
    exact fun _ => ⟨rfl, rfl⟩
  · exact hset

omit [DecidableEq κ] in
theorem currentTab_takeOver (u : MusicUi β ρ) (j : ℕ) (s : PlaylistUi ρ) :
    (u.takeOver j s).currentTab = u.currentTab := by
  unfold takeOver
  split <;> rfl

omit [DecidableEq κ] in
theorem OneTab.takeOver (h : u.OneTab) (hj : j < u.tabs.length) (s : PlaylistUi ρ) :
    (u.takeOver j s).OneTab := by
  have hflags := flags_takeOver u j s
  have hlength : (u.takeOver j s).tabs.length = u.tabs.length := by
    have hmap := congrArg List.length hflags
    rwa [flags, flags, List.length_map, List.length_map] at hmap
  have hcurrent := currentTab_takeOver u j s
  refine ⟨?_, ?_, fun i tab hi => ?_⟩
  · rw [hlength]
    unfold MusicUi.takeOver
    split
    · exact h.player
    · exact hj
  · rw [hlength, hcurrent]
    exact h.current
  · have hat := congrArg (fun l => l[i]?) hflags
    simp only [flags, List.getElem?_map, hi, Option.map_some] at hat
    obtain ⟨old, hold, heq⟩ := Option.map_eq_some_iff.mp hat.symm
    obtain ⟨hdisplayed, hflag⟩ := Prod.mk.inj heq
    rw [hcurrent, ← hdisplayed, ← hflag]
    exact h.displayed i old hold

theorem OneTab.step (h : u.OneTab) {a : UiAction β ρ} (hs : u.next idOf songId server a = some u') :
    u'.OneTab := by
  cases a with
  | browser a =>
      obtain ⟨browser, -, rfl⟩ := Option.map_eq_some_iff.mp hs
      exact ⟨h.player, h.current, h.displayed⟩
  | newTab =>
      cases hs
      exact oneTab_addTab h.player.le (fun _ _ => h.hideCurrent) _
  | tabClick j => exact h.tabClick hs
  | playlist a =>
      obtain ⟨j, hj, hs⟩ := Option.bind_eq_some_iff.mp hs
      obtain ⟨current, hcurrent, hs⟩ := Option.bind_eq_some_iff.mp hs
      obtain ⟨s, hs, rfl⟩ := Option.map_eq_some_iff.mp hs
      exact h.takeOver (List.getElem?_eq_some_iff.mp hcurrent).1 s

theorem oneTab_init : (init songId server : MusicUi β ρ).OneTab :=
  oneTab_addTab le_rfl (fun _ _ hi => by cases hi) _

/-- A tab that is not the current one stays as it is until its button is clicked. -/
theorem hidden_step {a : UiAction β ρ} (hshuffles : a.Shuffles → shuffles) (ha : a ≠ .tabClick i)
    (hs : u.next idOf songId server a = some u') (hcurrent : u.currentTab ≠ some i)
    (hi : u.tabs[i]? = some tab) : u'.currentTab ≠ some i ∧ Kept shuffles tab u'.tabs i := by
  refine ⟨?_, (next_tab hshuffles hs hi).resolve_right (fun h => hcurrent h.1)⟩
  cases a with
  | browser a =>
      obtain ⟨browser, -, rfl⟩ := Option.map_eq_some_iff.mp hs
      exact hcurrent
  | newTab =>
      cases hs
      exact fun h => Nat.ne_of_gt (List.getElem?_eq_some_iff.mp hi).1 (Option.some.inj h)
  | tabClick j =>
      obtain ⟨-, hu⟩ := Option.ite_none_right_eq_some.mp hs
      cases hu
      exact fun h => ha (congrArg _ (Option.some.inj h))
  | playlist a =>
      obtain ⟨j, -, hs⟩ := Option.bind_eq_some_iff.mp hs
      obtain ⟨current, -, hs⟩ := Option.bind_eq_some_iff.mp hs
      obtain ⟨s, -, rfl⟩ := Option.map_eq_some_iff.mp hs
      rwa [currentTab_takeOver]

/-- The playlist of a tab asks for songs by these parameters and its own sort list. -/
def Asks (parameters : QueryParameters) (i : ℕ) (u : MusicUi β ρ) : Prop :=
  ∃ tab, u.tabs[i]? = some tab ∧ tab.playlist.Sorts parameters

theorem Asks.step {parameters : QueryParameters} (h : u.Asks parameters i) {a : UiAction β ρ}
    (hs : u.next idOf songId server a = some u') : u'.Asks parameters i := by
  obtain ⟨tab, hi, hsorts⟩ := h
  have hshuffles : a.Shuffles → True := fun _ => trivial
  rcases next_tab hshuffles hs hi with ⟨tab', hi', hsame⟩ | ⟨-, a', s, -, hs, hi'⟩
  · exact ⟨tab', hi', hsorts.same hsame.sameQueries⟩
  · have hview : (u.view i tab.playlist).Sorts parameters :=
      ⟨hsorts.heads, hsorts.sound, hsorts.parameters⟩
    exact ⟨_, hi', hview.next hs⟩

theorem asks_newTab (u : MusicUi β ρ) :
    (u.newTab songId server).Asks u.browser.newPlaylistFromSelection u.tabs.length := by
  have hsorts : (PlaylistUi.create songId server u.browser.newPlaylistFromSelection u.playingIndex
      u.shownPlaylist).Sorts u.browser.newPlaylistFromSelection := create_sorts _ _ _
  refine ⟨Tab.show ⟨_, false, false⟩, ?_, hsorts⟩
  rw [newTab, addTab, ← length_hideCurrent u]
  exact List.getElem?_concat_length

theorem shows_step {a : UiAction β ρ} (h : u.browser.Shows idOf)
    (hs : u.next idOf songId server a = some u') : u'.browser.Shows idOf := by
  cases a with
  | browser a =>
      obtain ⟨browser, hbrowser, rfl⟩ := Option.map_eq_some_iff.mp hs
      exact h.step hbrowser
  | newTab =>
      cases hs
      exact h
  | tabClick j =>
      obtain ⟨-, hu⟩ := Option.ite_none_right_eq_some.mp hs
      cases hu
      exact h
  | playlist a =>
      obtain ⟨j, -, hs⟩ := Option.bind_eq_some_iff.mp hs
      obtain ⟨current, -, hs⟩ := Option.bind_eq_some_iff.mp hs
      obtain ⟨s, -, rfl⟩ := Option.map_eq_some_iff.mp hs
      unfold takeOver
      split <;> exact h

end MusicUi

open MusicUi PlaylistUi in
/-- Exactly one tab is displayed. Until its button is clicked, another tab keeps its search, its
sort list, what its rows show and its songs, whatever happens on the page and in the player. Only a
click on the shuffle button changes the order of the songs. -/
theorem hidden_tabs_kept {β ρ κ : Type} [DecidableEq κ] {idOf : PaneKind → β → ℕ} {songId : ρ → κ}
    {server : QueryParameters → List (Option (List ρ))} {l m : List (UiAction β ρ)}
    {u u' : MusicUi β ρ}
    (hbefore : Run (Fires (next idOf songId server)) (init songId server) l u) {i : ℕ}
    {tab : Tab ρ} (hi : u.tabs[i]? = some tab) (hhidden : tab.displayed = false)
    (hafter : Run (fun u a u' => a ≠ .tabClick i ∧ Fires (next idOf songId server) u a u') u m u') :
    (∃ j < u'.tabs.length, ∀ k other, u'.tabs[k]? = some other →
        (other.displayed = true ↔ j = k)) ∧
      ∃ tab', u'.tabs[i]? = some tab' ∧ tab'.displayed = false ∧
        SameRows (∃ a ∈ m, a.Shuffles) tab.playlist tab'.playlist := by
  have hone : u.OneTab := hbefore.invariant oneTab_init (fun _ _ _ h hs => h.step hs)
  have hcurrent : u.currentTab ≠ some i :=
    mt (hone.displayed i tab hi).1.mpr (Bool.eq_false_iff.mp hhidden)
  have hkept := hafter.mem.invariant
    (I := fun t => t.OneTab ∧ t.currentTab ≠ some i ∧ Kept (∃ a ∈ m, a.Shuffles) tab t.tabs i)
    ⟨hone, hcurrent, tab, hi, .refl _⟩ (fun t a v h hs => by
      obtain ⟨hone, hcurrent, between, hbetween, hsame⟩ := h
      obtain ⟨hmem, hbutton, hs⟩ := hs
      have hshuffles : a.Shuffles → ∃ a ∈ m, a.Shuffles := fun h => ⟨a, hmem, h⟩
      obtain ⟨hnot, after, hafter, hsame'⟩ := hidden_step hshuffles hbutton hs hcurrent hbetween
      exact ⟨hone.step hs, hnot, after, hafter, hsame.trans hsame'⟩)
  obtain ⟨hone', hcurrent', tab', hi', hsame⟩ := hkept
  obtain ⟨j, hj, hcurrentTab⟩ := hone'.current
  refine ⟨⟨j, hj, fun k other hk => ?_⟩, tab', hi', ?_, hsame⟩
  · rw [(hone'.displayed k other hk).1, hcurrentTab, Option.some_inj]
  · exact Bool.eq_false_iff.mpr (mt (hone'.displayed i tab' hi').1.mp hcurrent')

def twoTabs : List (UiAction ℕ ℕ) := [.newTab]

def shuffleAndSort : List (UiAction ℕ ℕ) :=
  [.playlist (.shuffle fun _ => 0), .playlist (.sort ⟨2, .up⟩)]

open MusicUi in
theorem hidden_tabs_kept_sort : ∃ u u' : MusicUi ℕ ℕ,
    execute (next (fun _ n => n) id twoRows) (init id twoRows) twoTabs = some u ∧
    execute (next (fun _ n => n) id twoRows) u shuffleAndSort = some u' ∧
    ∃ tab', u'.tabs[0]? = some tab' ∧ tab'.displayed = false ∧
      tab'.playlist.songsTable.shown = [1, 2] ∧ tab'.playlist.songs.rows.Perm [1, 2] := by
  have hrun : (execute (next (fun _ n => n) id twoRows) (init id twoRows) twoTabs).bind
      (fun u => (execute (next (fun _ n => n) id twoRows) u shuffleAndSort).bind
        (fun _ => u.tabs[0]?.map (fun tab => (tab.displayed, tab.playlist.songsTable.shown,
          tab.playlist.songs.rows)))) = some (false, [1, 2], [1, 2]) := by
    decide +kernel
  obtain ⟨u, hu, hrun⟩ := Option.bind_eq_some_iff.mp hrun
  obtain ⟨u', hu', hrun⟩ := Option.bind_eq_some_iff.mp hrun
  obtain ⟨tab, htab, hstate⟩ := Option.map_eq_some_iff.mp hrun
  obtain ⟨hdisplayed, hstate⟩ := Prod.mk.inj hstate
  obtain ⟨hshown, hrows⟩ := Prod.mk.inj hstate
  have hafter : Run (fun u a u' => a ≠ .tabClick 0 ∧ Fires (next (fun _ n => n) id twoRows) u a u')
      u shuffleAndSort u' := by
    refine (run_of_execute hu').mem.mono (fun _ a _ ha => ⟨?_, ha.2⟩)
    rintro rfl
    simp [shuffleAndSort] at ha
  obtain ⟨-, tab', htab', hhidden, -, hsame⟩ :=
    hidden_tabs_kept (run_of_execute hu) htab hdisplayed hafter
  exact ⟨u, u', hu, hu', tab', htab', hhidden, hsame.shown.trans hshown, hrows ▸ hsame.songs⟩

open MusicUi in
/-- Whatever is clicked before and after, the tab that `+` makes asks for the songs of the rows that
the browser shows as selected at the click. The server takes a request of the tab if it is not two
rows of a type, and it sorts by the sort list of the tab from the first click on an arrow on. -/
theorem tab_requests {β ρ κ : Type} [DecidableEq κ] {idOf : PaneKind → β → ℕ} {songId : ρ → κ}
    {server : QueryParameters → List (Option (List ρ))} {l m : List (UiAction β ρ)}
    {u u' : MusicUi β ρ}
    (hbefore : Run (Fires (next idOf songId server)) (init songId server) l u)
    (hafter : Run (Fires (next idOf songId server)) (u.newTab songId server) m u')
    {lib : Library} {query : MusicIndexer.DbQuery lib.strnatcasecmp}
    {column : PaneKind → ColumnTable} {order : Text → ColumnTable}
    (hids : ServesIds query column) (hsongs : ServesSongs query column order) :
    ∃ tab, u'.tabs[u.tabs.length]? = some tab ∧
      (∀ kind,
        (u.browser.newPlaylistFromSelection.ids kind).Perm (u.browser.highlighted idOf kind)) ∧
      ∀ (hostname : Word) (count : ℕ) (q : MusicIndexer.MusicQuery lib), q.known = some query →
        q.queryNouns = (pathWords (setUrl hostname count
          (tab.playlist.query.request tab.playlist.sort))).map textString →
        ((∃ kind, 2 ≤ (u.browser.highlighted idOf kind).length) →
          MusicIndexer.getMusicQuery q = .error .nullPool) ∧
        ((∀ kind, (u.browser.highlighted idOf kind).length ≤ 1) →
          ∃ q', MusicIndexer.getMusicQuery q = .ok (0, q') ∧
            RequestRead column u.browser.newPlaylistFromSelection count
              (if tab.playlist.query.sharesSort then tab.playlist.sort.map (orderTerm order)
                else [])
              (if tab.playlist.query.sharesSort then [] else sortErrors (text "song_title"))
              q q') := by
  have hplain := u.browser.plain_newPlaylistFromSelection
  have hshows : u.browser.Shows idOf :=
    hbefore.invariant (fun _ hpane => absurd hpane List.not_mem_nil)
      (fun _ _ _ h hs => shows_step h hs)
  have hperm : ∀ kind, (u.browser.newPlaylistFromSelection.ids kind).Perm
      (u.browser.highlighted idOf kind) := by
    intro kind
    rw [Browser.ids_newPlaylistFromSelection]
    exact hshows.selection kind
  obtain ⟨tab, htab, hsorts⟩ : u'.Asks u.browser.newPlaylistFromSelection u.tabs.length :=
    hafter.invariant (asks_newTab u) (fun _ _ _ h hs => h.step hs)
  refine ⟨tab, htab, hperm, fun hostname count q hknown hwords => ?_⟩
  simp only [← (hperm _).length_eq]
  cases hshares : tab.playlist.query.sharesSort with
  | false =>
      rw [PlaylistQuery.request, hshares, if_neg Bool.false_ne_true, hsorts.parameters] at hwords
      obtain ⟨hfault, htaken⟩ := hplain.request hids hknown hwords
      refine ⟨hfault, fun hle => ?_⟩
      obtain ⟨t, q', hsort, hcall, hread⟩ := htaken hle
      cases hsort
      exact ⟨q', hcall, hread⟩
  | true =>
      obtain ⟨hfault, htaken⟩ := hsorts.request hplain.simple hplain.searchFields_eq_nil
        (.inl hshares) hsongs hknown hwords
      rw [PlaylistUi.requestSort, hshares] at htaken
      exact ⟨hfault, htaken⟩

theorem servesIds_songListQuery :
    @ServesIds (listedLibrary songListQuery) songListQuery idColumn where
  toServesKeys := servesSongs_songListQuery.toServesKeys
  unnamed := ⟨rfl, rfl⟩

def selectSong : List (UiAction ℕ ℕ) :=
  [.browser (.addTable .song), .browser (.receive 0 [.parsed 3]), .browser (.click 0 0)]

open MusicUi in
/-- The song of the new tab is asked for again when the titles are sorted by. -/
theorem tab_requests_song : ∃ p, ∃ q' : MusicIndexer.MusicQuery (listedLibrary songListQuery),
    MusicIndexer.getMusicQuery (receivedQuery songListQuery exampleHost 0 p) = .ok (0, q') ∧
      ∃ r, q'.dbQueryParameters = some r ∧
        r.whereConditions = [idCondition idColumn .song 3] ∧
        (r.sqlClauses .orderBy).value = some (CString.ofAscii
          "Songs.album_name ASC,Songs.disc_no ASC,Songs.track_no ASC,Songs.song_title ASC") := by
  have hexecute : (execute (next (fun _ n => n) id twoRows) (init id twoRows) selectSong).bind
      (fun u => (execute (next (fun _ n => n) id twoRows) (u.newTab id twoRows)
        [.playlist (.sort ⟨2, .up⟩)]).bind (fun u' => u'.tabs[u.tabs.length]?.map (fun tab =>
          (urlKinds.map (u.browser.highlighted fun _ n => n), tab.playlist.query.sharesSort,
            tab.playlist.sort.map (orderTerm songNameColumn))))) =
      some ([[], [], [3]], true, [CString.ofAscii "Songs.album_name ASC",
        CString.ofAscii "Songs.disc_no ASC", CString.ofAscii "Songs.track_no ASC",
        CString.ofAscii "Songs.song_title ASC"]) := by
    decide +kernel
  obtain ⟨u, hu, hrun⟩ := Option.bind_eq_some_iff.mp hexecute
  obtain ⟨u', hu', hrun⟩ := Option.bind_eq_some_iff.mp hrun
  obtain ⟨tab, htab, hstate⟩ := Option.map_eq_some_iff.mp hrun
  obtain ⟨hids, hstate⟩ := Prod.mk.inj hstate
  obtain ⟨hshares, hterms⟩ := Prod.mk.inj hstate
  simp only [urlKinds, List.map_cons, List.map_nil, List.cons.injEq, and_true] at hids
  obtain ⟨halbum, hartist, hsong⟩ := hids
  have hplain := u.browser.plain_newPlaylistFromSelection
  obtain ⟨tab₂, htab₂, hsorts⟩ : u'.Asks u.browser.newPlaylistFromSelection u.tabs.length :=
    (run_of_execute hu').invariant (asks_newTab u) (fun _ _ _ h hs => h.step hs)
  cases htab₂.symm.trans htab
  obtain ⟨hrequest, hsort⟩ := hsorts.request_eq (.inl hshares)
  have hknown : (receivedQuery songListQuery exampleHost 0
      (tab.playlist.query.request tab.playlist.sort)).known = some songListQuery := by
    rw [hrequest]
    exact (hsort.simple hplain.simple).known u.browser.type_newPlaylistFromSelection _ _ _
  obtain ⟨tab₃, htab₃, hperm, hrequests⟩ := tab_requests (run_of_execute hu)
    (run_of_execute hu') servesIds_songListQuery servesSongs_songListQuery
  cases htab₃.symm.trans htab
  obtain ⟨q', hcall, ⟨r, hr, hconditions, -, -, horder⟩, -⟩ :=
    (hrequests exampleHost 0 _ hknown rfl).2 fun kind => by
      cases kind with
      | artist => rw [hartist]; exact Nat.zero_le 1
      | album => rw [halbum]; exact Nat.zero_le 1
      | song => rw [hsong]; exact le_rfl
  refine ⟨_, q', hcall, r, hr, hconditions.trans ?_, horder.trans ?_⟩
  · have hnil : ∀ kind, u.browser.highlighted (fun _ n => n) kind = [] →
        u.browser.newPlaylistFromSelection.ids kind = [] :=
      fun kind h => List.perm_nil.mp (h ▸ hperm kind)
    have hone := List.perm_singleton.mp (hsong ▸ hperm .song)
    simp only [urlKinds, List.flatMap_cons, List.flatMap_nil, hnil _ halbum, hnil _ hartist, hone,
      List.map_nil, List.map_singleton, List.nil_append, List.append_nil]
  · rw [hshares, if_pos rfl, hterms]
    rfl

end ModMp
