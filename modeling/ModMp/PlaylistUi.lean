import ModMp.PlayerUi
import ModMp.PlaylistReindex
import ModMp.PlaylistShuffle
import ModMp.PlaylistSort

/-!
# A playlist and what its user does

A playlist has a query for its songs and one for its search. Both are loaded in response to clicks
and to text in the search boxes, and `onComplete` of the first is replaced on the way. The first
click on an arrow outside of a search makes the sort list of the playlist, the array itself, the
sort list of the query, and one inside of a search does the same for the search query. The server
answers a query with a list of responses, one for each page and maybe a last one without songs, and
an action is complete with all of them. The player plays this playlist or another one, and its
shuffle button is for the playlist that it plays. Where the code throws, what it has done so far
stays. The sources of songs and their decoding are left out; whether a song was found playable in
the end is part of the action. So is `unshuffled_playlist`, which nothing reads.
-/

namespace ModMp

/-- What `songs` of a playlist is: undefined after responses without songs, the array with
`undefined` in it that the shuffle of no songs leaves, or an array of songs. -/
inductive SongArray (ρ : Type)
  | undefined
  | hole
  | array (songs : List (DataElem ρ))

/-- The parameters, whether their `sort_by` is the array of the playlist, and the songs of the
results, which are undefined until a response has songs. -/
structure PlaylistQuery (ρ : Type) where
  parameters : QueryParameters
  sharesSort : Bool
  results : Option (List (DataElem ρ))

/-- What `query.onComplete` is: the function of the constructor, of `sort_playlist`, or of
`search_box_change`. -/
inductive OnComplete
  | copySongs
  | changeSongs
  | changeSong

/-- The fields of a playlist that the player uses; `search_results` is set during a search. -/
structure PlayedPlaylist (ρ : Type) where
  songs : SongArray ρ
  searching : Bool
  shuffled : Bool
  songsTable : Table ρ

/-- `otherPlaylist` is the playlist of the player if that is another one. `songsSort` is kept for
the statements: the value of `sort_by` in the requests that the songs came from. -/
structure PlaylistUi (ρ : Type) where
  shuffled : Bool
  sort : List SortColumn
  songs : SongArray ρ
  searchResults : Option (List (DataElem ρ))
  songsTable : Table ρ
  query : PlaylistQuery ρ
  onComplete : OnComplete
  searchQuery : PlaylistQuery ρ
  playingIndex : Option ℤ
  otherPlaylist : Option (PlayedPlaylist ρ)
  songsSort : SortBy

/-- A click on an arrow, text in the search box of a column, a click on a row whose song is found
playable or not, the player's own change to a song that it was given before, and a click on its
shuffle button, where a draw behind `i` counts as `i`. -/
inductive PlaylistAction (ρ : Type)
  | sort (click : ArrowClick)
  | search (column : ℕ) (value : Text)
  | play (row : ℕ) (found : Bool)
  | playerChange (song : DataElem ρ)
  | shuffle (random : ℕ → ℕ)

namespace QueryParameters

/-- The parameter under the name of a column with a search box. -/
def searchText (p : QueryParameters) (name : Text) : Option Text :=
  if name = text "song_title" then p.songTitle
  else if name = text "artist_name" then p.artistName
  else if name = text "album_name" then p.albumName
  else none

def setSearchText (p : QueryParameters) (name : Text) (value : Option Text) : QueryParameters :=
  if name = text "song_title" then { p with songTitle := value }
  else if name = text "artist_name" then { p with artistName := value }
  else if name = text "album_name" then { p with albumName := value }
  else p

def searchEmpty (p : QueryParameters) (columns : List Column) : Bool :=
  columns.all (fun col => !col.search || (p.searchText col.friendlyName).getD [] = [])

end QueryParameters

variable {ρ κ : Type}

namespace SongArray

def ofResults : Option (List (DataElem ρ)) → SongArray ρ
  | none => .undefined
  | some songs => .array songs

def rows : SongArray ρ → List ρ
  | .array songs => songs.map DataElem.row
  | _ => []

/-- The entry at an index. A read of an array that is undefined throws. -/
def entry : SongArray ρ → Option ℤ → Option (Option (DataElem ρ))
  | .undefined, _ => none
  | .hole, _ => some none
  | .array songs, index => some (songAt songs index)

/-- The songs as `change_song` reads them, if it does not throw. It looks through all of them during
a search, and otherwise it reads the one that is playing. -/
def read (searching : Bool) (playingIndex : Option ℤ) : SongArray ρ → Option (List (DataElem ρ))
  | .array songs => some songs
  | .hole => if searching || playingIndex = some 0 then none else some []
  | .undefined => if searching || playingIndex.any (0 ≤ ·) then none else some []

/-- `decode_next_songs` reads the songs of the player's playlist. -/
def decodes : SongArray ρ → Bool
  | .undefined => false
  | _ => true

/-- `change_playlist_songs` before the decoding: the songs, the playing index and whether nothing
has thrown. The playing song is looked for in the new songs. -/
def change [DecidableEq κ] (songId : ρ → κ) (songs newSongs : SongArray ρ)
    (playingIndex : Option ℤ) : SongArray ρ × Option ℤ × Bool :=
  match songs.entry playingIndex, newSongs with
  | none, _ => (songs, playingIndex, false)
  | some (some song), .array new =>
      (.array new, some (getPlaylistIndex (elemId songId) new (elemId songId song)), true)
  | some _, new => (new, playingIndex, false)

/-- The array that `shuffle` fills. The songs are distinct objects, and their places stand for
them. -/
def shuffle (random : ℕ → ℕ) : SongArray ρ → SongArray ρ
  | .array songs =>
      let r := Playlist.shuffle (List.range songs.length) (fun i => min (random i) i)
        (fun i => songs[i]?.bind DataElem.shuffledIndex)
      let shuffledPlaylist := r.shuffledPlaylist.map (fun place => place.bind (fun i =>
        songs[i]?.map (fun song => { song with shuffledIndex := r.shuffledIndex i })))
      if shuffledPlaylist.all Option.isSome then .array (shuffledPlaylist.filterMap id) else .hole
  | songs => songs

end SongArray

def PlaylistQuery.request (q : PlaylistQuery ρ) (sort : List SortColumn) : QueryParameters :=
  if q.sharesSort then { q.parameters with sortBy := .columns sort } else q.parameters

/-- A response, with the table and the results before it. The rows are shown or not. -/
def receive (shown : Bool) (s : Table ρ × Option (List (DataElem ρ)))
    (response : Option (List ρ)) : Table ρ × Option (List (DataElem ρ)) :=
  match response with
  | none => s
  | some rows =>
      let data := s.2.getD [] ++ rows.map DataElem.parsed
      if shown then
        let (table, data) := s.1.addRows data
        (table, some data)
      else (s.1, some data)

def songFields (songId : ρ → κ) : SongFields (DataElem ρ) κ where
  songId := elemId songId
  tableIndex := DataElem.tableIndex
  shuffledIndex := DataElem.shuffledIndex

namespace PlayedPlaylist

variable [DecidableEq κ] (songId : ρ → κ)

/-- `change_song`, with the playing index before and after it. -/
def changeSong (song : Option (DataElem ρ)) (p : PlayedPlaylist ρ) (playingIndex : Option ℤ) :
    PlayedPlaylist ρ × Option ℤ :=
  match p.songs.read p.searching playingIndex with
  | some songs =>
      let ui := PlayerUi.changeSong (songFields songId)
        ⟨⟨songs, p.searching, p.shuffled, p.songsTable⟩, playingIndex⟩ song
      ({ p with songsTable := ui.playlist.songsTable }, ui.playingIndex)
  | none => (p, playingIndex)

def shuffle (random : ℕ → ℕ) (p : PlayedPlaylist ρ) (playingIndex : Option ℤ) :
    PlayedPlaylist ρ × Option ℤ :=
  let r := p.songs.change songId (p.songs.shuffle random) playingIndex
  ({ p with songs := r.1, shuffled := p.shuffled || r.2.2 }, r.2.1)

end PlayedPlaylist

namespace PlaylistUi

def shownPlaylist (s : PlaylistUi ρ) : PlayedPlaylist ρ where
  songs := s.songs
  searching := s.searchResults.isSome
  shuffled := s.shuffled
  songsTable := s.songsTable

/-- The playlist of the player. -/
def played (s : PlaylistUi ρ) : PlayedPlaylist ρ := s.otherPlaylist.getD s.shownPlaylist

/-- The player does something to its playlist. -/
def onPlayed (s : PlaylistUi ρ) (f : PlayedPlaylist ρ → Option ℤ → PlayedPlaylist ρ × Option ℤ) :
    PlaylistUi ρ :=
  let r := f s.played s.playingIndex
  match s.otherPlaylist with
  | some _ => { s with otherPlaylist := some r.1, playingIndex := r.2 }
  | none =>
      { s with
        songs := r.1.songs
        shuffled := r.1.shuffled
        songsTable := r.1.songsTable
        playingIndex := r.2 }

variable [DecidableEq κ] (songId : ρ → κ) (server : QueryParameters → List (Option (List ρ)))

def changeSong (s : PlaylistUi ρ) (song : Option (DataElem ρ)) : PlaylistUi ρ :=
  s.onPlayed (PlayedPlaylist.changeSong songId song)

def changeCurrent (s : PlaylistUi ρ) : PlaylistUi ρ :=
  match s.songs.entry s.playingIndex with
  | some song => s.changeSong songId song
  | none => s

def changePlaylistSongs (s : PlaylistUi ρ) (newSongs : SongArray ρ) : PlaylistUi ρ × Bool :=
  let r := s.songs.change songId newSongs s.playingIndex
  let s := { s with songs := r.1, playingIndex := r.2.1 }
  (s, r.2.2 && s.played.songs.decodes)

def completeQuery (s : PlaylistUi ρ) : PlaylistUi ρ :=
  let songsSort := (s.query.request s.sort).sortBy
  match s.onComplete with
  | .copySongs => { s with songs := .ofResults s.query.results, songsSort := songsSort }
  | .changeSongs =>
      if s.shuffled = false then
        let s := { s with songsSort := songsSort }
        let (s, returned) := s.changePlaylistSongs songId (.ofResults s.query.results)
        if returned then s.changeCurrent songId else s
      else
        match s.songs with
        | .array songs =>
            let r := updateTableIndexs songId songs (s.query.results.getD [])
            let s := { s with
              songs := .array r.songs
              query := { s.query with results := s.query.results.map (fun _ => r.newTindexs) } }
            s.changeCurrent songId
        -- the loop over the songs throws, or the playing song is undefined
        | _ => s
  | .changeSong => s.changeCurrent songId

/-- The rows of `query` are added to the table when there is no search. -/
def loadQuery (s : PlaylistUi ρ) : PlaylistUi ρ :=
  let (table, results) := (server (s.query.request s.sort)).foldl
    (receive s.searchResults.isNone) (s.songsTable, none)
  let s := { s with songsTable := table, query := { s.query with results := results } }
  s.completeQuery songId

/-- The rows of `search_query` are added to the table in any case. The search is over when the
results have no songs. -/
def loadSearchQuery (s : PlaylistUi ρ) : PlaylistUi ρ :=
  let (table, results) := (server (s.searchQuery.request s.sort)).foldl
    (receive true) (s.songsTable, none)
  { s with
    songsTable := table
    searchQuery := { s.searchQuery with results := results }
    searchResults := results }

def clearTable (s : PlaylistUi ρ) : PlaylistUi ρ := { s with songsTable := s.songsTable.clear }

/-- A click on an arrow, first in the table and then in the playlist. -/
def sortPlaylist (s : PlaylistUi ρ) (click : ArrowClick) : Option (PlaylistUi ρ) :=
  (TableSort.click ⟨s.songsTable.columns, s.sort⟩ click).map (fun r =>
    let s := { s with songsTable := { s.songsTable with columns := r.columns }, sort := r.sort }
    if s.searchResults.isNone then
      let s := { s with query := { s.query with sharesSort := true } }.clearTable
      { s with onComplete := .changeSongs }.loadQuery songId server
    else
      let s := { s with searchQuery := { s.searchQuery with sharesSort := true } }.clearTable
      s.loadSearchQuery server)

def setSearchText (s : PlaylistUi ρ) (name : Text) (value : Option Text) : PlaylistUi ρ :=
  { s with searchQuery :=
    { s.searchQuery with parameters := s.searchQuery.parameters.setSearchText name value } }

/-- All search boxes are cleared once the one under `name` is. -/
def endsSearch (s : PlaylistUi ρ) (name : Text) : Bool :=
  (s.searchQuery.parameters.setSearchText name none).searchEmpty s.songsTable.columns

def searchBoxChange (s : PlaylistUi ρ) (name value : Text) : PlaylistUi ρ :=
  if 0 < value.length then
    let s := { s with searchResults := some [] }
    let s := s.setSearchText name (some (text "*" ++ value ++ text "*"))
    s.clearTable.loadSearchQuery server
  else if s.endsSearch name then
    let s := s.setSearchText name none
    let s := { s with searchResults := none }.clearTable
    { s with onComplete := .changeSong }.loadQuery songId server
  else s.setSearchText name none

/-- A click on the row of a song, which is then looked for in the songs. -/
def songClick (s : PlaylistUi ρ) (row : TableRow ρ) (found : Bool) : PlaylistUi ρ :=
  let s := { s with otherPlaylist := none }
  match s.songs with
  | .array songs =>
      let index := getPlaylistIndex (elemId songId) songs (elemId songId row.dataElem)
      match songAt songs (some index) with
      | some song => if found then s.changeSong songId (some song) else s
      | none => s
  | _ => s

def next (s : PlaylistUi ρ) : PlaylistAction ρ → Option (PlaylistUi ρ)
  | .sort click => s.sortPlaylist songId server click
  | .search column value =>
      s.songsTable.columns[column]?.bind (fun col =>
        if col.search then some (s.searchBoxChange songId server col.friendlyName value)
        else none)
  | .play row found => s.songsTable.rows[row]?.map (fun row => s.songClick songId row found)
  | .playerChange song => some (s.changeSong songId (some song))
  | .shuffle random => some (s.onPlayed (PlayedPlaylist.shuffle songId random))

def create (parameters : QueryParameters) (playingIndex : Option ℤ)
    (otherPlaylist : Option (PlayedPlaylist ρ)) : PlaylistUi ρ :=
  loadQuery songId server
    { shuffled := false
      sort := defaultSort
      songs := .undefined
      searchResults := none
      songsTable := ⟨songColumns, [], []⟩
      query := ⟨parameters, false, none⟩
      onComplete := .copySongs
      searchQuery := ⟨parameters, false, none⟩
      playingIndex := playingIndex
      otherPlaylist := otherPlaylist
      songsSort := parameters.sortBy }

end PlaylistUi

def defaultParameters : QueryParameters where
  type := ⟨text "songs", clear_songs⟩
  numResults := 10000
  sortBy := .columns defaultSort
  artistId := []
  albumId := []
  songId := []
  sourceId := []
  albumName := some []
  artistName := some []
  songTitle := some []
  sourceType := none
  outputType := none
  objects := [text "songs"]

end ModMp
