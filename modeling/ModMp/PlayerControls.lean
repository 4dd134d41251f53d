import ModMp.PlayerLoads
import ModMp.PlayerUi

/-!
# The buttons of the player

The previous and the next button, the end of a song and a click on a song play a song of the
playlist; the play button plays the first song at first, and then stops and resumes. A song that has
a source is shown and loaded, and what it changes on the page changes together. The songs keep their
indices here: nothing is searched, sorted or shuffled, and every click is in the playlist of the
player. The audio element is its source and what it was told to load, in order.
-/

namespace ModMp
open Runs

inductive PlayIcon
  | play
  | pause
  deriving DecidableEq

/-- The functions that `play_button.onclick` is set to. -/
inductive PlayClick
  | playFirst
  | stop
  | resume
  deriving DecidableEq

structure PlayerControls (σ ρ τ : Type) where
  ui : PlayerUi σ ρ
  sources : σ → List τ
  playing : Bool
  nextToPlay : Option σ
  queries : List σ
  decodingJobs : List σ
  src : Option τ
  loads : List (σ × Option τ)
  songInfo : Option σ
  playIcon : PlayIcon
  playClick : PlayClick

inductive ControlEvent (κ τ : Type)
  | playButton
  | previousButton
  | nextButton
  | ended
  | songClick (id : κ)
  | loadstart
  | sourcesReply (i : ℕ) (results : Option (List τ))
  | jobReply (i : ℕ) (status : JobStatus τ)

variable {σ ρ τ κ : Type}

/-- Scrolling to a song reads its row. -/
def PlayerUi.scrollThrows (fields : SongFields σ κ) (s : PlayerUi σ ρ) (song : σ) : Bool :=
  !s.playlist.searching && (s.playlist.songsTable.rowAt (fields.tableIndex song)).isNone

namespace PlayerControls

def findPlayableSource (s : PlayerControls σ ρ τ) (song : σ) : ℕ × PlayerControls σ ρ τ :=
  if (s.sources song).length < 1 then (0, { s with queries := s.queries ++ [song] })
  else ((s.sources song).length, s)

/-- The song at an index that is computed from the playing index and the number of songs. -/
def songNear (s : PlayerControls σ ρ τ) (index : ℤ → ℤ → ℤ) : Option σ :=
  songAt s.ui.playlist.songs
    (s.ui.playingIndex.map (fun playing => index playing s.ui.playlist.songs.length))

/-- The loop of `decode_next_songs`, from the distance `i` on. -/
def decodeNextSongs (s : PlayerControls σ ρ τ) (i : ℕ) : ℕ → PlayerControls σ ρ τ
  | 0 => s
  | n + 1 =>
      match s.songNear (fun playing length => (playing + i).tmod length) with
      | some song => decodeNextSongs (s.findPlayableSource song).2 (i + 1) n
      | none => s

section Events

variable [DecidableEq κ] (fields : SongFields σ κ)

/-- Whether the function returns, and the player. It throws when the song has no row. -/
def playSong (s : PlayerControls σ ρ τ) : Option σ → Bool × PlayerControls σ ρ τ
  | none => (true, s)
  | some song =>
      let s := { s with playing := false, nextToPlay := some song }
      let (found, s) := s.findPlayableSource song
      if found = 0 then (true, { s with playing := false })
      else
        let throws := s.ui.scrollThrows fields song
        let s := { s with playing := true, ui := s.ui.changeSong fields (some song) }
        if throws then (false, s)
        else
          let s := { s with
            src := (s.sources song).head?
            loads := s.loads ++ [(song, (s.sources song).head?)]
            songInfo := some song
            playIcon := .pause
            playClick := .stop }
          (true, s.decodeNextSongs 1 4)

def stopSong (s : PlayerControls σ ρ τ) : PlayerControls σ ρ τ :=
  { s with playIcon := .play, playClick := .resume }

def resume (s : PlayerControls σ ρ τ) : PlayerControls σ ρ τ :=
  { s with playIcon := .pause, playClick := .stop }

def clickPlay (s : PlayerControls σ ρ τ) : PlayerControls σ ρ τ :=
  match s.playClick with
  | .playFirst => (s.playSong fields s.ui.playlist.songs[0]?).2
  | .stop => s.stopSong
  | .resume => s.resume

def clickPrevious (s : PlayerControls σ ρ τ) : PlayerControls σ ρ τ :=
  (s.playSong fields (s.songNear (fun playing length =>
    ((playing - 1).tmod length + length).tmod length))).2

def clickNext (s : PlayerControls σ ρ τ) : PlayerControls σ ρ τ :=
  (s.playSong fields (s.songNear (fun playing length => (playing + 1).tmod length))).2

def clickSong (s : PlayerControls σ ρ τ) (id : κ) : PlayerControls σ ρ τ :=
  (s.playSong fields
    (songAt s.ui.playlist.songs (some (getPlaylistIndex fields.songId s.ui.playlist.songs id)))).2

variable [DecidableEq σ]

def sourcesQueryLoaded (s : PlayerControls σ ρ τ) (song : σ) (results : List τ) :
    PlayerControls σ ρ τ :=
  if 0 < results.length then
    let s := { s with sources := Function.update s.sources song results }
    if s.playing = false ∧ s.nextToPlay ≠ none then (s.playSong fields (some song)).2 else s
  else { s with decodingJobs := s.decodingJobs ++ [song] }

def updateDecodingStatus (s : PlayerControls σ ρ τ) (i : ℕ) (song : σ) :
    JobStatus τ → PlayerControls σ ρ τ
  | .null => s
  | .progress => s
  | .finished source =>
      let s := { s with sources := Function.update s.sources song [source] }
      let (returned, s) := if s.playing = false ∧
          s.nextToPlay.map fields.songId = some (fields.songId song) then
        s.playSong fields (some song) else (true, s)
      if returned then { s with decodingJobs := s.decodingJobs.eraseIdx i } else s

/-- Nothing starts to load before a source is set. -/
def next (s : PlayerControls σ ρ τ) : ControlEvent κ τ → Option (PlayerControls σ ρ τ)
  | .playButton => some (s.clickPlay fields)
  | .previousButton => some (s.clickPrevious fields)
  | .nextButton => some (s.clickNext fields)
  | .ended => if s.src = none then none else some (s.clickNext fields)
  | .songClick id => some (s.clickSong fields id)
  | .loadstart => if s.src = none then none else some { s with playing := true }
  | .sourcesReply i results => (s.queries[i]?).map (fun song =>
      let s := { s with queries := s.queries.eraseIdx i }
      match results with
      | some results => s.sourcesQueryLoaded fields song results
      | none => s)
  | .jobReply i status => (s.decodingJobs[i]?).map (fun song =>
      s.updateDecodingStatus fields i song status)

end Events

def create (playlist : ShownPlaylist σ ρ) (sources : σ → List τ) : PlayerControls σ ρ τ where
  ui := ⟨playlist, some 0⟩
  sources := sources
  playing := false
  nextToPlay := none
  queries := []
  decodingJobs := []
  src := none
  loads := []
  songInfo := none
  playIcon := .play
  playClick := .playFirst

end PlayerControls

/-- The row `index` is selected and no other. -/
def Table.Highlights (t : Table ρ) (index : Option ℕ) : Prop :=
  ∀ i row, t.rows[i]? = some row → (row.selected = true ↔ index = some i)

namespace Table

variable {t : Table ρ}

theorem length_setSelected (t : Table ρ) (i : ℕ) (selected : Bool) :
    (t.setSelected (some i) selected).rows.length = t.rows.length := List.length_modify ..

theorem rows_setSelected {i j : ℕ} {selected : Bool} {row : TableRow ρ}
    (h : (t.setSelected (some i) selected).rows[j]? = some row) :
    ∃ old, t.rows[j]? = some old ∧
      row.selected = if i = j then selected else old.selected := by
  rw [setSelected, List.getElem?_modify] at h
  obtain ⟨old, hold, rfl⟩ := Option.map_eq_some_iff.mp h
  refine ⟨old, hold, ?_⟩
  split_ifs <;> rfl

theorem Highlights.deselectRow {index : Option ℕ} (h : t.Highlights index) (other : Option ℕ)
    (hother : index = none ∨ index = other) :
    (t.deselectRow other).2.Highlights none ∧
      (t.deselectRow other).2.rows.length = t.rows.length := by
  cases other with
  | none =>
      rw [hother.elim id id] at h
      exact ⟨h, rfl⟩
  | some i =>
      rw [Table.deselectRow, rowAt, Option.bind_some]
      cases hrow : t.rows[i]? with
      | none =>
          refine ⟨fun j row hj => ?_, rfl⟩
          rw [h j row hj]
          refine iff_of_false (fun hindex => ?_) (Option.some_ne_none j).symm
          rcases hother with hother | hother
          · cases hother.symm.trans hindex
          · cases hother.symm.trans hindex
            cases hrow.symm.trans hj
      | some row =>
          dsimp only
          cases hselected : row.selected with
          | true =>
              rw [if_pos rfl]
              refine ⟨fun j other hj => ?_, t.length_setSelected i false⟩
              obtain ⟨old, hold, hset⟩ := rows_setSelected hj
              rw [hset]
              refine iff_of_false (fun htrue => ?_) (Option.some_ne_none j).symm
              split_ifs at htrue with hij
              have hindex := (h j old hold).mp htrue
              exact hij (Option.some.inj (((h i row hrow).mp hselected).symm.trans hindex))
          | false =>
              rw [if_neg Bool.false_ne_true]
              refine ⟨fun j other hj => ?_, rfl⟩
              rw [h j other hj]
              refine iff_of_false (fun hindex => ?_) (Option.some_ne_none j).symm
              rcases hother with hother | hother
              · cases hother.symm.trans hindex
              · have htrue := (h i row hrow).mpr hother
                cases hselected.symm.trans htrue

theorem Highlights.selectRow (h : t.Highlights none) {i : ℕ} (hi : i < t.rows.length) :
    ∃ t₂, t.selectRow (some i) = some (0, t₂) ∧ t₂.Highlights (some i) ∧
      t₂.rows.length = t.rows.length := by
  have hrow : t.rows[i]? = some t.rows[i] := List.getElem?_eq_getElem hi
  have hselected : t.rows[i].selected = false := by
    rw [← Bool.not_eq_true, h i _ hrow]
    exact (Option.some_ne_none i).symm
  refine ⟨t.setSelected (some i) true, ?_, fun j row hj => ?_, t.length_setSelected i true⟩
  · rw [Table.selectRow, rowAt, Option.bind_some, hrow, Option.map_some, hselected]
    rfl
  · obtain ⟨old, hold, hset⟩ := rows_setSelected hj
    rw [hset, Option.some_inj]
    split_ifs with hij
    · exact iff_of_true rfl hij
    · rw [h j old hold]
      exact iff_of_false (Option.some_ne_none j).symm hij

end Table

/-- The field of a song that the playing index is set to. -/
def ShownPlaylist.index (fields : SongFields σ κ) (p : ShownPlaylist σ ρ) (song : σ) : Option ℕ :=
  if p.shuffled then fields.shuffledIndex song else fields.tableIndex song

/-- A playlist that is not searched: each song has its index and a row. -/
structure Indexed (fields : SongFields σ κ) (p : ShownPlaylist σ ρ) : Prop where
  searching : p.searching = false
  index : ∀ i song, p.songs[i]? = some song → p.index fields song = some i
  row : ∀ song ∈ p.songs, ∃ i < p.songsTable.rows.length, fields.tableIndex song = some i

/-- The playing index when `song` has been loaded last. -/
def playingIndexOf (fields : SongFields σ κ) (p : ShownPlaylist σ ρ) : Option σ → Option ℤ
  | none => some 0
  | some song => (p.index fields song).map Int.ofNat

theorem mem_of_songAt {songs : List σ} {index : Option ℤ} {song : σ}
    (h : songAt songs index = some song) : song ∈ songs := by
  obtain ⟨i, -, hi⟩ := Option.bind_eq_some_iff.mp h
  split_ifs at hi
  exact List.mem_of_getElem? hi

theorem songAt_ofNat (songs : List σ) (i : ℕ) : songAt songs (some (i : ℤ)) = songs[i]? := by
  rw [songAt, Option.bind_some, if_pos (Int.natCast_nonneg i), Int.toNat_natCast]

theorem Indexed.songAt {fields : SongFields σ κ} {p : ShownPlaylist σ ρ} (h : Indexed fields p)
    {song : σ} (hsong : song ∈ p.songs) :
    ∃ i : ℕ, p.songs[i]? = some song ∧ playingIndexOf fields p (some song) = some (i : ℤ) ∧
      ModMp.songAt p.songs (playingIndexOf fields p (some song)) = some song := by
  obtain ⟨i, hi⟩ := List.mem_iff_getElem?.mp hsong
  have hindex : playingIndexOf fields p (some song) = some (i : ℤ) := by
    rw [playingIndexOf, h.index i song hi]
    rfl
  exact ⟨i, hi, hindex, by rw [hindex, songAt_ofNat, hi]⟩

/-- The highlight moves from the song that has been loaded last to the next one. -/
theorem PlayerUi.changeSong_highlights [DecidableEq κ] {fields : SongFields σ κ}
    {p : ShownPlaylist σ ρ} (h : Indexed fields p) {table : Table ρ}
    (hlength : table.rows.length = p.songsTable.rows.length) {loaded : Option σ}
    (hloaded : ∀ song, loaded = some song → song ∈ p.songs)
    (hhighlights : table.Highlights (loaded.bind fields.tableIndex)) {song : σ}
    (hsong : song ∈ p.songs) :
    ∃ table₂, PlayerUi.changeSong fields
        ⟨{ p with songsTable := table }, playingIndexOf fields p loaded⟩ (some song) =
          ⟨{ p with songsTable := table₂ }, playingIndexOf fields p (some song)⟩ ∧
      table₂.rows.length = p.songsTable.rows.length ∧
      table₂.Highlights (fields.tableIndex song) := by
  have hdeselect : ∃ table₁, PlayerUi.deselectSong fields
      ⟨{ p with songsTable := table }, playingIndexOf fields p loaded⟩ =
        ⟨{ p with songsTable := table₁ }, playingIndexOf fields p loaded⟩ ∧
      table₁.Highlights none ∧ table₁.rows.length = p.songsTable.rows.length := by
    rw [deselectSong]
    dsimp only
    cases loaded with
    | none =>
        cases songAt p.songs (playingIndexOf fields p none) with
        | none => exact ⟨table, rfl, hhighlights, hlength⟩
        | some current =>
            obtain ⟨hnone, hrows⟩ := hhighlights.deselectRow (fields.tableIndex current)
              (.inl rfl)
            exact ⟨_, rfl, hnone, hrows.trans hlength⟩
    | some current =>
        obtain ⟨-, -, -, hat⟩ := h.songAt (hloaded current rfl)
        rw [hat]
        obtain ⟨hnone, hrows⟩ := hhighlights.deselectRow (fields.tableIndex current)
          (.inr rfl)
        exact ⟨_, rfl, hnone, hrows.trans hlength⟩
  obtain ⟨table₁, hdeselect, hnone, hlength₁⟩ := hdeselect
  obtain ⟨i, hi, hrow⟩ := h.row song hsong
  obtain ⟨table₂, hselect, hhighlights₂, hlength₂⟩ := hnone.selectRow (hlength₁ ▸ hi)
  refine ⟨table₂, ?_, hlength₂.trans hlength₁, hrow ▸ hhighlights₂⟩
  have hsearching : ¬ p.searching = true := by
    rw [h.searching]
    exact Bool.false_ne_true
  rw [changeSong]
  dsimp only
  rw [if_neg hsearching, hdeselect]
  dsimp only
  rw [hrow, hselect]
  dsimp only
  rw [setTable, playingIndexOf, ShownPlaylist.index, hrow]

namespace PlayerControls

/-- What the page shows belongs together: the song that was loaded last, into the audio element, is
the one in the song info, its row is the only one that is highlighted, and the buttons agree. -/
structure Shows (fields : SongFields σ κ) (p : ShownPlaylist σ ρ) (s : PlayerControls σ ρ τ) :
    Prop where
  playlist : ∃ table : Table ρ, s.ui = ⟨{ p with songsTable := table },
      playingIndexOf fields p s.songInfo⟩ ∧
    table.rows.length = p.songsTable.rows.length ∧
    table.Highlights (s.songInfo.bind fields.tableIndex)
  loaded : ∀ song, s.songInfo = some song → song ∈ p.songs
  asked : ∀ song ∈ s.queries ++ s.decodingJobs, song ∈ p.songs
  buttons : (s.songInfo = none ∧ s.src = none ∧ s.playIcon = .play ∧ s.playClick = .playFirst) ∨
    (s.songInfo ≠ none ∧ s.src ≠ none ∧
      (s.playIcon = .pause ∧ s.playClick = .stop ∨ s.playIcon = .play ∧ s.playClick = .resume))
  last : s.loads.getLast?.map Prod.fst = s.songInfo ∧ s.loads.getLast?.bind Prod.snd = s.src

variable {fields : SongFields σ κ} {p : ShownPlaylist σ ρ} {s : PlayerControls σ ρ τ}

theorem Shows.create (hnone : p.songsTable.Highlights none) (sources : σ → List τ) :
    Shows fields p (PlayerControls.create p sources) :=
  ⟨⟨p.songsTable, rfl, rfl, hnone⟩, nofun, nofun, .inl ⟨rfl, rfl, rfl, rfl⟩, ⟨rfl, rfl⟩⟩

theorem last_snoc (loads : List (σ × Option τ)) (song : σ) (source : τ) :
    (loads ++ [(song, some source)]).getLast?.map Prod.fst = some song ∧
      (loads ++ [(song, some source)]).getLast?.bind Prod.snd = some source := by
  rw [List.getLast?_concat]
  exact ⟨rfl, rfl⟩

theorem Shows.songs (h : Shows fields p s) : s.ui.playlist.songs = p.songs := by
  obtain ⟨table, hui, -⟩ := h.playlist
  rw [hui]

theorem Shows.songNear (h : Shows fields p s) {index : ℤ → ℤ → ℤ} {song : σ}
    (hsong : s.songNear index = some song) : song ∈ p.songs := by
  rw [← h.songs]
  exact mem_of_songAt hsong

theorem Shows.queries (h : Shows fields p s) {queries : List σ}
    (hqueries : ∀ song ∈ queries, song ∈ p.songs) :
    Shows fields p { s with queries := queries } :=
  ⟨h.playlist, h.loaded, fun song hsong => (List.mem_append.mp hsong).elim (hqueries song)
    (fun hjob => h.asked song (List.mem_append_right _ hjob)), h.buttons, h.last⟩

theorem Shows.erase (h : Shows fields p s) {queries jobs : List σ}
    (hqueries : queries.Sublist s.queries) (hjobs : jobs.Sublist s.decodingJobs)
    (sources : σ → List τ) :
    Shows fields p { s with queries := queries, decodingJobs := jobs, sources := sources } :=
  ⟨h.playlist, h.loaded, fun song hsong =>
    h.asked song ((hqueries.append hjobs).subset hsong), h.buttons, h.last⟩

theorem Shows.findPlayableSource (h : Shows fields p s) {song : σ} (hsong : song ∈ p.songs) :
    ∃ queries, (s.findPlayableSource song).2 = { s with queries := queries } ∧
      (∀ song ∈ queries, song ∈ p.songs) ∧ (s.sources song ≠ [] → queries = s.queries) := by
  have hqueries : ∀ song ∈ s.queries, song ∈ p.songs :=
    fun other hother => h.asked other (List.mem_append_left _ hother)
  rw [PlayerControls.findPlayableSource]
  split_ifs with hlt
  · refine ⟨s.queries ++ [song], rfl, fun other hother => ?_, fun hne => ?_⟩
    · rcases List.mem_append.mp hother with hother | hother
      · exact hqueries other hother
      · exact List.mem_singleton.mp hother ▸ hsong
    · exact absurd (List.length_eq_zero_iff.mp (Nat.lt_one_iff.mp hlt)) hne
  · exact ⟨s.queries, rfl, hqueries, fun _ => rfl⟩

theorem Shows.decodeNextSongs (h : Shows fields p s) (i n : ℕ) :
    ∃ queries, s.decodeNextSongs i n = { s with queries := queries } ∧
      (∀ song ∈ queries, song ∈ p.songs) ∧
      ((∀ song ∈ p.songs, s.sources song ≠ []) → queries = s.queries) := by
  have hqueries : ∀ song ∈ s.queries, song ∈ p.songs :=
    fun other hother => h.asked other (List.mem_append_left _ hother)
  induction n generalizing s i with
  | zero => exact ⟨s.queries, rfl, hqueries, fun _ => rfl⟩
  | succ n ih =>
      rw [PlayerControls.decodeNextSongs]
      cases hnear : s.songNear (fun playing length => (playing + i).tmod length) with
      | none => exact ⟨s.queries, rfl, hqueries, fun _ => rfl⟩
      | some song =>
          have hsong := h.songNear hnear
          obtain ⟨queries, hfind, hmem, hsame⟩ := h.findPlayableSource hsong
          obtain ⟨queries₂, hnext, hmem₂, hsame₂⟩ := ih (h.queries hmem) (i + 1) hmem
          refine ⟨queries₂, ?_, hmem₂, fun hsources => ?_⟩
          · dsimp only
            rw [hfind]
            exact hnext
          · exact (hsame₂ hsources).trans (hsame (hsources song hsong))

variable [DecidableEq κ]

theorem Shows.playSong_cases (h : Shows fields p s) (hp : Indexed fields p) {song : σ}
    (hsong : song ∈ p.songs) :
    (s.sources song = [] ∧ (s.playSong fields (some song)) = (true, { s with
      playing := false, nextToPlay := some song, queries := s.queries ++ [song] })) ∨
    ∃ table queries source sources, s.sources song = source :: sources ∧
      table.rows.length = p.songsTable.rows.length ∧ table.Highlights (fields.tableIndex song) ∧
      (∀ song ∈ queries, song ∈ p.songs) ∧
      ((∀ song ∈ p.songs, s.sources song ≠ []) → queries = s.queries) ∧
      s.playSong fields (some song) = (true, { s with
        ui := ⟨{ p with songsTable := table }, playingIndexOf fields p (some song)⟩
        playing := true
        nextToPlay := some song
        queries := queries
        src := some source
        loads := s.loads ++ [(song, some source)]
        songInfo := some song
        playIcon := .pause
        playClick := .stop }) := by
  obtain ⟨table, hui, hlength, hhighlights⟩ := h.playlist
  cases hsources : s.sources song with
  | nil =>
      refine .inl ⟨rfl, ?_⟩
      rw [playSong, PlayerControls.findPlayableSource]
      dsimp only
      rw [hsources]
      rfl
  | cons source sources =>
      obtain ⟨table₂, hchange, hlength₂, hhighlights₂⟩ :=
        PlayerUi.changeSong_highlights hp hlength h.loaded hhighlights hsong
      have hthrows : s.ui.scrollThrows fields song = false := by
        obtain ⟨i, hi, hrow⟩ := hp.row song hsong
        rw [hui, PlayerUi.scrollThrows, hp.searching, hrow, Table.rowAt, Option.bind_some,
          List.getElem?_eq_getElem (hlength ▸ hi)]
        rfl
      have hshows : Shows fields p { s with
          ui := ⟨{ p with songsTable := table₂ }, playingIndexOf fields p (some song)⟩
          playing := true
          nextToPlay := some song
          src := some source
          loads := s.loads ++ [(song, some source)]
          songInfo := some song
          playIcon := .pause
          playClick := .stop } :=
        ⟨⟨table₂, rfl, hlength₂, hhighlights₂⟩, fun _ hother => Option.some.inj hother ▸ hsong,
          h.asked, .inr ⟨Option.some_ne_none _, Option.some_ne_none _, .inl ⟨rfl, rfl⟩⟩,
          last_snoc s.loads song source⟩
      obtain ⟨queries, hdecode, hqueries, hsame⟩ := hshows.decodeNextSongs 1 4
      refine .inr ⟨table₂, queries, source, sources, rfl, hlength₂, hhighlights₂, hqueries, hsame,
        ?_⟩
      have hlen : ¬ (s.sources song).length < 1 := by
        rw [hsources, List.length_cons]
        omega
      have hne : (s.sources song).length ≠ 0 := by
        rw [hsources]
        exact Nat.succ_ne_zero _
      rw [playSong, PlayerControls.findPlayableSource]
      dsimp only
      rw [if_neg hlen]
      dsimp only
      rw [if_neg hne, hthrows, if_neg Bool.false_ne_true, hui, hchange, hsources, List.head?_cons,
        hdecode]

theorem Shows.playSong (h : Shows fields p s) (hp : Indexed fields p) {song : σ}
    (hsong : song ∈ p.songs) :
    (s.playSong fields (some song)).1 = true ∧
      Shows fields p (s.playSong fields (some song)).2 := by
  rcases h.playSong_cases hp hsong with ⟨-, hplay⟩ |
    ⟨table, queries, source, sources, -, hlength, hhighlights, hqueries, -, hplay⟩
  · rw [hplay]
    refine ⟨rfl, h.playlist, h.loaded, fun other hother => ?_, h.buttons, h.last⟩
    rcases List.mem_append.mp hother with hother | hother
    · rcases List.mem_append.mp hother with hother | hother
      · exact h.asked other (List.mem_append_left _ hother)
      · exact List.mem_singleton.mp hother ▸ hsong
    · exact h.asked other (List.mem_append_right _ hother)
  · rw [hplay]
    refine ⟨rfl, ⟨table, rfl, hlength, hhighlights⟩, fun _ hother => Option.some.inj hother ▸ hsong,
      fun other hother => ?_, .inr ⟨Option.some_ne_none _, Option.some_ne_none _, .inl ⟨rfl, rfl⟩⟩,
      last_snoc _ _ _⟩
    rcases List.mem_append.mp hother with hother | hother
    · exact hqueries other hother
    · exact h.asked other (List.mem_append_right _ hother)

theorem Shows.playSongAt (h : Shows fields p s) (hp : Indexed fields p) {song : Option σ}
    (hsong : ∀ s ∈ song, s ∈ p.songs) : Shows fields p (s.playSong fields song).2 := by
  cases song with
  | none => exact h
  | some song => exact (h.playSong hp (hsong song rfl)).2

variable [DecidableEq σ]

theorem Shows.sourcesQueryLoaded (h : Shows fields p s) (hp : Indexed fields p) {song : σ}
    (hsong : song ∈ p.songs) (results : List τ) :
    Shows fields p (s.sourcesQueryLoaded fields song results) := by
  have hset := h.erase (List.Sublist.refl _) (List.Sublist.refl _)
    (Function.update s.sources song results)
  rw [PlayerControls.sourcesQueryLoaded]
  dsimp only
  split_ifs
  · exact (hset.playSong hp hsong).2
  · exact hset
  · refine ⟨h.playlist, h.loaded, fun other hother => ?_, h.buttons, h.last⟩
    rw [← List.append_assoc] at hother
    rcases List.mem_append.mp hother with hother | hother
    · exact h.asked other hother
    · exact List.mem_singleton.mp hother ▸ hsong

theorem Shows.updateDecodingStatus (h : Shows fields p s) (hp : Indexed fields p) {song : σ}
    (hsong : song ∈ p.songs) (i : ℕ) (status : JobStatus τ) :
    Shows fields p (s.updateDecodingStatus fields i song status) := by
  cases status with
  | null => exact h
  | progress => exact h
  | finished source =>
      have hset := h.erase (List.Sublist.refl _) (List.Sublist.refl _)
        (Function.update s.sources song [source])
      have hsplice : ∀ {s : PlayerControls σ ρ τ}, Shows fields p s →
          Shows fields p { s with decodingJobs := s.decodingJobs.eraseIdx i } :=
        fun {s} h => h.erase (List.Sublist.refl _) (List.eraseIdx_sublist _ i) s.sources
      rw [PlayerControls.updateDecodingStatus]
      split_ifs with hplays
      · obtain ⟨hreturned, hplayed⟩ := hset.playSong hp hsong
        rw [show (PlayerControls.playSong fields { s with
          sources := Function.update s.sources song [source] } (some song)) =
            (true, (PlayerControls.playSong fields { s with
              sources := Function.update s.sources song [source] } (some song)).2) from
          Prod.ext hreturned rfl]
        exact hsplice hplayed
      · exact hsplice hset

theorem Shows.step (h : Shows fields p s) (hp : Indexed fields p) {e : ControlEvent κ τ}
    {s' : PlayerControls σ ρ τ} (hstep : Fires (next fields) s e s') : Shows fields p s' := by
  have hnear : ∀ index, ∀ song ∈ s.songNear index, song ∈ p.songs := fun _ _ => h.songNear
  cases e with
  | playButton =>
      cases hstep
      rw [clickPlay]
      rcases h.buttons with ⟨-, -, -, hclick⟩ | ⟨hloaded, hsrc, ⟨-, hclick⟩ | ⟨-, hclick⟩⟩
      · rw [hclick]
        exact h.playSongAt hp (fun song hsong => h.songs ▸ List.mem_of_getElem? hsong)
      · rw [hclick]
        exact ⟨h.playlist, h.loaded, h.asked, .inr ⟨hloaded, hsrc, .inr ⟨rfl, rfl⟩⟩, h.last⟩
      · rw [hclick]
        exact ⟨h.playlist, h.loaded, h.asked, .inr ⟨hloaded, hsrc, .inl ⟨rfl, rfl⟩⟩, h.last⟩
  | previousButton =>
      cases hstep
      exact h.playSongAt hp (hnear _)
  | nextButton =>
      cases hstep
      exact h.playSongAt hp (hnear _)
  | ended =>
      rw [Fires, next] at hstep
      split_ifs at hstep
      cases hstep
      exact h.playSongAt hp (hnear _)
  | songClick id =>
      cases hstep
      exact h.playSongAt hp (fun song hsong => h.songs ▸ mem_of_songAt hsong)
  | loadstart =>
      rw [Fires, next] at hstep
      split_ifs at hstep
      cases hstep
      exact ⟨h.playlist, h.loaded, h.asked, h.buttons, h.last⟩
  | sourcesReply i results =>
      obtain ⟨song, hsong, rfl⟩ := Option.map_eq_some_iff.mp hstep
      have hmem : song ∈ p.songs :=
        h.asked song (List.mem_append_left _ (List.mem_of_getElem? hsong))
      have herased := h.erase (List.eraseIdx_sublist s.queries i) (List.Sublist.refl _) s.sources
      cases results with
      | none => exact herased
      | some results => exact herased.sourcesQueryLoaded hp hmem results
  | jobReply i status =>
      obtain ⟨song, hsong, rfl⟩ := Option.map_eq_some_iff.mp hstep
      exact h.updateDecodingStatus hp
        (h.asked song (List.mem_append_right _ (List.mem_of_getElem? hsong))) i status

/-- Whatever is clicked and whatever the server answers, in any order, the page shows one song. -/
theorem page_shows_one_song (hp : Indexed fields p) (hnone : p.songsTable.Highlights none)
    (sources : σ → List τ) {l : List (ControlEvent κ τ)}
    (hrun : Run (Fires (next fields)) (create p sources) l s) : Shows fields p s :=
  hrun.invariant (Shows.create hnone sources) (fun _ _ _ h hstep => h.step hp hstep)

def numberFields : SongFields ℕ ℕ := ⟨id, some, fun _ => none⟩

def shownNumbers : ShownPlaylist ℕ Unit :=
  ⟨[0, 1], false, false, ⟨[], [], List.replicate 2 ⟨.parsed (), false⟩⟩⟩

theorem indexed_shownNumbers : Indexed numberFields shownNumbers := by
  refine ⟨rfl, fun i song hsong => ?_, fun song hsong => ?_⟩
  · match i, hsong with
    | 0, rfl => rfl
    | 1, rfl => rfl
  · fin_cases hsong
    · exact ⟨0, by decide, rfl⟩
    · exact ⟨1, by decide, rfl⟩

theorem highlights_shownNumbers : shownNumbers.songsTable.Highlights none := by
  intro i row hrow
  rw [(List.mem_replicate.mp (List.mem_of_getElem? hrow)).2]
  exact iff_of_false Bool.false_ne_true (Option.some_ne_none i).symm

/-- The second song is asked for, and its sources arrive. -/
theorem page_shows_second_song : ∃ s : PlayerControls ℕ Unit ℕ, s.loads = [(1, some 9)] ∧
    s.songInfo = some 1 ∧ s.playIcon = .pause ∧ Shows numberFields shownNumbers s := by
  have hrun : ∃ s, execute (next numberFields) (create shownNumbers (fun _ => []))
      [.nextButton, .sourcesReply 0 (some [9])] = some s ∧
        s.loads = [(1, some 9)] ∧ s.songInfo = some 1 ∧ s.playIcon = .pause :=
    ⟨_, rfl, rfl, rfl, rfl⟩
  obtain ⟨s, hrun, hloads, hsong, hicon⟩ := hrun
  exact ⟨s, hloads, hsong, hicon, page_shows_one_song indexed_shownNumbers highlights_shownNumbers
    (fun _ => []) (run_of_execute hrun)⟩

end PlayerControls

/-- The remainder after a step back, computed with a remainder that may be negative. -/
theorem tmod_add_tmod {a n : ℤ} (hn : 0 < n) : (a.tmod n + n).tmod n = a % n := by
  have hlt : -n < a.tmod n := Int.lt_tmod_of_pos a hn
  rw [Int.tmod_eq_emod_of_nonneg (by omega), Int.add_emod_right]
  conv_rhs => rw [← Int.tmod_add_tdiv_mul a n]
  rw [Int.add_mul_emod_self_right]

/-- Where the player is after an event: a click on a song goes to its index, and the other buttons
go on or back. -/
def nextPosition [DecidableEq κ] (songId : σ → κ) (songs : List σ) (position : ℤ) :
    ControlEvent κ τ → ℤ
  | .previousButton => position - 1
  | .nextButton | .ended => position + 1
  | .songClick id => if getPlaylistIndex songId songs id < 0 then position
      else getPlaylistIndex songId songs id
  | .playButton | .loadstart | .sourcesReply _ _ | .jobReply _ _ => position

namespace PlayerControls

variable {fields : SongFields σ κ} {p : ShownPlaylist σ ρ} {s : PlayerControls σ ρ τ}
  {position : ℤ}

/-- All songs have sources, nothing has been asked for, and the player is at `position`. -/
structure At (fields : SongFields σ κ) (p : ShownPlaylist σ ρ) (position : ℤ)
    (s : PlayerControls σ ρ τ) : Prop where
  shows : Shows fields p s
  sources : ∀ song ∈ p.songs, s.sources song ≠ []
  idle : s.queries = [] ∧ s.decodingJobs = []
  index : s.ui.playingIndex = some (position % p.songs.length)
  start : s.songInfo = none → position = 0

theorem At.songNear (h : At fields p position s) (index : ℤ → ℤ → ℤ) :
    s.songNear index =
      songAt p.songs (some (index (position % p.songs.length) p.songs.length)) := by
  rw [PlayerControls.songNear, h.shows.songs, h.index, Option.map_some]

theorem At.song (h : At fields p position s) (hp : Indexed fields p) {song : σ}
    (hsong : s.songInfo = some song) :
    songAt p.songs (some (position % p.songs.length)) = some song := by
  obtain ⟨table, hui, -⟩ := h.shows.playlist
  obtain ⟨i, -, -, hat⟩ := hp.songAt (h.shows.loaded song hsong)
  rw [← h.index, hui, hsong]
  exact hat

variable [DecidableEq κ]

theorem At.play (h : At fields p position s) (hp : Indexed fields p) (hne : p.songs ≠ []) (q : ℤ) :
    At fields p q (s.playSong fields (songAt p.songs (some (q % p.songs.length)))).2 := by
  have hpos : (0 : ℤ) < p.songs.length := by exact_mod_cast List.length_pos_of_ne_nil hne
  obtain ⟨i, hi⟩ := Int.eq_ofNat_of_zero_le (Int.emod_nonneg q hpos.ne')
  have hlt : i < p.songs.length := by
    have hmod := Int.emod_lt_of_pos q hpos
    omega
  have hget : p.songs[i]? = some p.songs[i] := List.getElem?_eq_getElem hlt
  have hmem : p.songs[i] ∈ p.songs := List.getElem_mem hlt
  rw [hi, songAt_ofNat, hget]
  have hindex : playingIndexOf fields p (some p.songs[i]) = some (q % p.songs.length) := by
    rw [playingIndexOf, hp.index i _ hget, hi]
    rfl
  have hshows := (h.shows.playSong hp hmem).2
  rcases h.shows.playSong_cases hp hmem with ⟨hnil, -⟩ |
    ⟨table, queries, source, sources, -, -, -, -, hsame, hplay⟩
  · exact absurd hnil (h.sources _ hmem)
  · rw [hplay] at hshows ⊢
    exact ⟨hshows, h.sources, ⟨(hsame h.sources).trans h.idle.1, h.idle.2⟩, hindex,
      fun hnone => absurd hnone (Option.some_ne_none _)⟩

variable [DecidableEq σ]

theorem At.step (h : At fields p position s) (hp : Indexed fields p) (hne : p.songs ≠ [])
    {e : ControlEvent κ τ} {s' : PlayerControls σ ρ τ} (hstep : Fires (next fields) s e s') :
    At fields p (nextPosition fields.songId p.songs position e) s' := by
  have hpos : (0 : ℤ) < p.songs.length := by exact_mod_cast List.length_pos_of_ne_nil hne
  have hforward : At fields p (position + 1) (s.clickNext fields) := by
    have hmod := Int.emod_nonneg position hpos.ne'
    rw [clickNext, h.songNear, Int.tmod_eq_emod_of_nonneg (by omega), Int.emod_add_emod]
    exact h.play hp hne _
  cases e with
  | playButton =>
      have hshows := h.shows.step hp hstep
      cases hstep
      rw [clickPlay] at hshows ⊢
      rcases h.shows.buttons with ⟨hnone, -, -, hclick⟩ | ⟨-, -, ⟨-, hclick⟩ | ⟨-, hclick⟩⟩
      · have hplay := h.play hp hne position
        rw [h.start hnone, Int.zero_emod, show (0 : ℤ) = ((0 : ℕ) : ℤ) from rfl,
          songAt_ofNat] at hplay
        rw [hclick, nextPosition, h.start hnone, h.shows.songs]
        exact hplay
      · rw [hclick] at hshows ⊢
        exact ⟨hshows, h.sources, h.idle, h.index, h.start⟩
      · rw [hclick] at hshows ⊢
        exact ⟨hshows, h.sources, h.idle, h.index, h.start⟩
  | previousButton =>
      cases hstep
      rw [clickPrevious, h.songNear, tmod_add_tmod hpos, Int.emod_sub_emod]
      exact h.play hp hne _
  | nextButton =>
      cases hstep
      exact hforward
  | ended =>
      rw [Fires, next] at hstep
      split_ifs at hstep
      cases hstep
      exact hforward
  | songClick id =>
      cases hstep
      rw [clickSong, h.shows.songs, nextPosition]
      by_cases hfound : getPlaylistIndex fields.songId p.songs id < 0
      · rw [if_pos hfound, songAt, Option.bind_some, if_neg (not_le.mpr hfound)]
        exact h
      · rw [if_neg hfound]
        have hplay := h.play hp hne (getPlaylistIndex fields.songId p.songs id)
        rwa [Int.emod_eq_of_lt (not_lt.mp hfound) (getPlaylistIndex_lt _ _ _)] at hplay
  | loadstart =>
      have hshows := h.shows.step hp hstep
      rw [Fires, next] at hstep
      split_ifs at hstep
      cases hstep
      exact ⟨hshows, h.sources, h.idle, h.index, h.start⟩
  | sourcesReply i results =>
      obtain ⟨song, hsong, -⟩ := Option.map_eq_some_iff.mp hstep
      rw [h.idle.1] at hsong
      cases hsong
  | jobReply i status =>
      obtain ⟨song, hsong, -⟩ := Option.map_eq_some_iff.mp hstep
      rw [h.idle.2] at hsong
      cases hsong

/-- When all songs have sources, the buttons go through the playlist in a circle: the playing song
is the one at the position, and the server is asked for nothing. -/
theorem buttons_go_around (hp : Indexed fields p) (hnone : p.songsTable.Highlights none)
    (hne : p.songs ≠ []) {sources : σ → List τ} (hsources : ∀ song ∈ p.songs, sources song ≠ [])
    {l : List (ControlEvent κ τ)} (hrun : Run (Fires (next fields)) (create p sources) l s) :
    s.ui.playingIndex =
        some (l.foldl (nextPosition fields.songId p.songs) 0 % p.songs.length) ∧
      s.loads.getLast?.map Prod.fst = s.songInfo ∧
      (∀ song, s.songInfo = some song → songAt p.songs s.ui.playingIndex = some song) ∧
      s.queries = [] ∧ s.decodingJobs = [] := by
  have hat : At fields p (l.foldl (nextPosition fields.songId p.songs) 0) s := by
    refine hrun.history (I := fun l s => At fields p
      (l.foldl (nextPosition fields.songId p.songs) 0) s) ?_ (fun l s e s' h hstep => ?_)
    · refine ⟨Shows.create hnone sources, hsources, ⟨rfl, rfl⟩, ?_, fun _ => rfl⟩
      rw [List.foldl_nil, Int.zero_emod]
      rfl
    · rw [List.foldl_append]
      exact h.step hp hne hstep
  refine ⟨hat.index, hat.shows.last.1, fun song hsong => ?_, hat.idle⟩
  rw [hat.index]
  exact hat.song hp hsong

/-- One step on and two back, from the first song. -/
theorem buttons_go_around_back : ∃ s : PlayerControls ℕ Unit ℕ,
    s.loads.map Prod.fst = [1, 0, 1] ∧ s.ui.playingIndex = some 1 ∧ s.songInfo = some 1 ∧
    (∀ song, s.songInfo = some song → songAt shownNumbers.songs s.ui.playingIndex = some song) ∧
    s.queries = [] ∧ s.decodingJobs = [] := by
  have hrun : ∃ s, execute (next numberFields) (create shownNumbers (fun song => [song]))
      [.nextButton, .previousButton, .previousButton] = some s ∧
        s.loads.map Prod.fst = [1, 0, 1] := ⟨_, rfl, rfl⟩
  obtain ⟨s, hrun, hloads⟩ := hrun
  obtain ⟨hindex, hlast, hsong, hidle⟩ := buttons_go_around indexed_shownNumbers
    highlights_shownNumbers (List.cons_ne_nil _ _) (fun song _ => List.cons_ne_nil song [])
    (run_of_execute hrun)
  rw [← List.getLast?_map, hloads] at hlast
  exact ⟨s, hloads, hindex, hlast.symm, hsong, hidle⟩

end PlayerControls

end ModMp
