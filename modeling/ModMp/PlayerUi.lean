import ModMp.UiTable

/-!
# The song that the player shows

`changeSong` moves the highlight in the table of the playlist to another song and sets the
playing index. Song objects are of any type, with their fields given as functions. An index may be
undefined, and it is negative when a song was looked for and not found. What is logged is left
out.
-/

namespace ModMp

structure SongFields (σ κ : Type) where
  songId : σ → κ
  tableIndex : σ → Option ℕ
  shuffledIndex : σ → Option ℕ

/-- The fields of a playlist that the player uses; `search_results` is set during a search. -/
structure ShownPlaylist (σ ρ : Type) where
  songs : List σ
  searching : Bool
  shuffled : Bool
  songsTable : Table ρ

structure PlayerUi (σ ρ : Type) where
  playlist : ShownPlaylist σ ρ
  playingIndex : Option ℤ

variable {σ ρ κ : Type}

def songAt (songs : List σ) (index : Option ℤ) : Option σ :=
  index.bind (fun index => if 0 ≤ index then songs[index.toNat]? else none)

def getPlaylistIndex [DecidableEq κ] (songId : σ → κ) (songs : List σ) (id : κ) : ℤ :=
  ((songs.map songId).findIdx? (· = id)).elim (-1) Int.ofNat

theorem getPlaylistIndex_lt [DecidableEq κ] (songId : σ → κ) (songs : List σ) (id : κ) :
    getPlaylistIndex songId songs id < songs.length := by
  rw [getPlaylistIndex]
  cases hfind : (songs.map songId).findIdx? (· = id) with
  | none => exact (Int.natCast_nonneg _).trans_lt' (by decide)
  | some i =>
      obtain ⟨hi, -⟩ := List.findIdx?_eq_some_iff_getElem.mp hfind
      rw [List.length_map] at hi
      exact Int.ofNat_lt.mpr hi

namespace PlayerUi

def setTable (s : PlayerUi σ ρ) (table : Table ρ) : PlayerUi σ ρ :=
  { s with playlist := { s.playlist with songsTable := table } }

/-- The highlight of the playing song is taken away. -/
def deselectSong (fields : SongFields σ κ) (s : PlayerUi σ ρ) : PlayerUi σ ρ :=
  match songAt s.playlist.songs s.playingIndex with
  | some song => s.setTable (s.playlist.songsTable.deselectRow (fields.tableIndex song)).2
  | none => s

/-- The scrolling throws when the table has no row for the song. -/
def changeSong [DecidableEq κ] (fields : SongFields σ κ) (s : PlayerUi σ ρ) :
    Option σ → PlayerUi σ ρ
  | none => s
  | some song =>
      if s.playlist.searching then
        let index := getPlaylistIndex fields.songId s.playlist.songs (fields.songId song)
        { s with playingIndex := some index }
      else
        let s := s.deselectSong fields
        let index := if s.playlist.shuffled then fields.shuffledIndex song
          else fields.tableIndex song
        let s := { s with playingIndex := index.map Int.ofNat }
        match s.playlist.songsTable.selectRow (fields.tableIndex song) with
        | some (_, table) => s.setTable table
        | none => s

theorem deselectSong_shuffled (fields : SongFields σ κ) (s : PlayerUi σ ρ) :
    (s.deselectSong fields).playlist.shuffled = s.playlist.shuffled := by
  unfold deselectSong
  cases songAt s.playlist.songs s.playingIndex <;> rfl

theorem changeSong_playingIndex [DecidableEq κ] (fields : SongFields σ κ) {s : PlayerUi σ ρ}
    (hsearching : s.playlist.searching = false) (song : σ) :
    (s.changeSong fields (some song)).playingIndex =
      (if s.playlist.shuffled then fields.shuffledIndex song
        else fields.tableIndex song).map Int.ofNat := by
  rw [changeSong, hsearching, if_neg Bool.false_ne_true, ← deselectSong_shuffled fields s]
  dsimp only
  split <;> rfl

theorem changeSong_playlist [DecidableEq κ] (fields : SongFields σ κ) (s : PlayerUi σ ρ)
    (song : Option σ) : ∃ table : Table ρ, table.shown = s.playlist.songsTable.shown ∧
      (s.changeSong fields song).playlist = { s.playlist with songsTable := table } := by
  cases song with
  | none => exact ⟨_, rfl, rfl⟩
  | some song =>
      rw [changeSong]
      split_ifs
      · exact ⟨_, rfl, rfl⟩
      · have hdeselect : ∃ table : Table ρ, table.shown = s.playlist.songsTable.shown ∧
            (s.deselectSong fields).playlist = { s.playlist with songsTable := table } := by
          unfold deselectSong
          cases songAt s.playlist.songs s.playingIndex with
          | none => exact ⟨_, rfl, rfl⟩
          | some current =>
              exact ⟨_, Table.shown_deselectRow _ (fields.tableIndex current), rfl⟩
        obtain ⟨table, hshown, hplaylist⟩ := hdeselect
        dsimp only
        split
        · next result selected hselect =>
          rw [hplaylist] at hselect
          refine ⟨selected, (Table.shown_selectRow hselect).trans hshown, ?_⟩
          rw [setTable, hplaylist]
        · exact ⟨table, hshown, hplaylist⟩

end PlayerUi

end ModMp
