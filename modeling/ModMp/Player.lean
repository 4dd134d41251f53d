import Mathlib.Tactic

/-!
# The player of the client

`playSong` loads a song that has a source into the audio element and asks for the sources of the
next songs of the playlist; for a song without a source it only asks. The replies come in any
order: a reply with sources may play its song, and one without starts a decoding job, whose last
status may play it. Song objects are of any type, and each has an identifier. The songs that the
audio element was told to load are kept in order.
-/

namespace ModMp

structure Player (ι σ : Type) where
  playlist : List ι
  index : ι → ℕ
  sources : ι → List σ
  playing : Bool
  nextToPlay : Option ι
  playingIndex : ℕ
  queries : List ι
  decodingJobs : List ι
  loads : List ι

/-- What a decoding job reports: nothing, some progress, or the new source. -/
inductive JobStatus (σ : Type)
  | null
  | progress
  | finished (source : σ)

inductive PlayerEvent (ι σ : Type)
  | ask (song : ι)
  | sourcesReply (i : ℕ) (results : Option (List σ))
  | jobReply (i : ℕ) (status : JobStatus σ)
  | loadstart

variable {ι κ σ : Type}

namespace Player

/-- The number of sources, and the player after the query that is sent when there are none. -/
def findPlayableSource (s : Player ι σ) (song : ι) : ℕ × Player ι σ :=
  if (s.sources song).length < 1 then (0, { s with queries := s.queries ++ [song] })
  else ((s.sources song).length, s)

/-- The loop over the next songs, from the distance `i` on. -/
def decodeNextSongs (s : Player ι σ) (i : ℕ) : ℕ → Player ι σ
  | 0 => s
  | n + 1 =>
      match s.playlist[(s.playingIndex + i) % s.playlist.length]? with
      | some song => decodeNextSongs (s.findPlayableSource song).2 (i + 1) n
      | none => s

def playSong (s : Player ι σ) (song : ι) : Player ι σ :=
  let s := { s with playing := false, nextToPlay := some song }
  let (found, s) := s.findPlayableSource song
  if found = 0 then { s with playing := false }
  else
    let s := { s with
      playing := true
      playingIndex := s.index song
      loads := s.loads ++ [song] }
    s.decodeNextSongs 1 4

variable [DecidableEq ι] [DecidableEq κ]

/-- The callback of a query for the sources of `song`. -/
def sourcesQueryLoaded (s : Player ι σ) (song : ι) (results : List σ) : Player ι σ :=
  if 0 < results.length then
    let s := { s with sources := Function.update s.sources song results }
    if s.playing = false ∧ s.nextToPlay ≠ none then s.playSong song else s
  else { s with decodingJobs := s.decodingJobs ++ [song] }

/-- The callback of the query for decoding job number `i`, whose song is `song`. -/
def updateDecodingStatus (songId : ι → κ) (s : Player ι σ) (i : ℕ) (song : ι) :
    JobStatus σ → Player ι σ
  | .null => s
  | .progress => s
  | .finished source =>
      let s := { s with sources := Function.update s.sources song [source] }
      let s := if s.playing = false ∧ s.nextToPlay.map songId = some (songId song) then
        s.playSong song else s
      { s with decodingJobs := s.decodingJobs.eraseIdx i }

/-- A reply may lack the sources altogether; nothing is called then. -/
def next (songId : ι → κ) (s : Player ι σ) : PlayerEvent ι σ → Option (Player ι σ)
  | .ask song => some (s.playSong song)
  | .sourcesReply i results => (s.queries[i]?).map (fun song =>
      let s := { s with queries := s.queries.eraseIdx i }
      match results with
      | some results => s.sourcesQueryLoaded song results
      | none => s)
  | .jobReply i status => (s.decodingJobs[i]?).map (fun song =>
      s.updateDecodingStatus songId i song status)
  | .loadstart => if s.loads = [] then none else some { s with playing := true }

def create (playlist : List ι) (index : ι → ℕ) (sources : ι → List σ) : Player ι σ where
  playlist := playlist
  index := index
  sources := sources
  playing := false
  nextToPlay := none
  playingIndex := 0
  queries := []
  decodingJobs := []
  loads := []

end Player

end ModMp
