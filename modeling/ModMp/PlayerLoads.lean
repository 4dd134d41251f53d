import ModMp.Player
import ModMp.Runs

/-!
# Which song a reply plays

A reply with sources plays its song whenever nothing plays and some song was asked for; it does not
ask which. As long as such a reply is for the song that is to play next, every song that a reply
loads is the last one asked for.
-/

namespace ModMp
open Runs

variable {ι κ σ : Type}

namespace PlayerEvent

def asked : PlayerEvent ι σ → Option ι
  | .ask song => some song
  | _ => none

def IsReply : PlayerEvent ι σ → Prop
  | .sourcesReply _ _ | .jobReply _ _ => True
  | _ => False

end PlayerEvent

def lastAsked (l : List (PlayerEvent ι σ)) : Option ι := (l.filterMap PlayerEvent.asked).getLast?

/-- Sources that arrive while nothing plays are those of the song that is to play next. -/
def ForNextToPlay (songId : ι → κ) (s : Player ι σ) : PlayerEvent ι σ → Prop
  | .sourcesReply i (some results) => ∀ song ∈ s.queries[i]?, results ≠ [] → s.playing = false →
      ∀ next ∈ s.nextToPlay, songId song = songId next
  | _ => True

namespace Player

variable {songId : ι → κ} {s s' : Player ι σ}

theorem findPlayableSource_queries (s : Player ι σ) (song : ι) :
    ∃ queries, (s.findPlayableSource song).2 = { s with queries := queries } := by
  unfold findPlayableSource
  split_ifs
  · exact ⟨_, rfl⟩
  · exact ⟨s.queries, rfl⟩

theorem decodeNextSongs_queries (s : Player ι σ) (i n : ℕ) :
    ∃ queries, s.decodeNextSongs i n = { s with queries := queries } := by
  induction n generalizing s i with
  | zero => exact ⟨s.queries, rfl⟩
  | succ n ih =>
      rw [decodeNextSongs]
      cases s.playlist[(s.playingIndex + i) % s.playlist.length]? with
      | none => exact ⟨s.queries, rfl⟩
      | some song =>
          obtain ⟨queries, hqueries⟩ := s.findPlayableSource_queries song
          obtain ⟨queries', hqueries'⟩ := ih { s with queries := queries } (i + 1)
          exact ⟨queries', by dsimp only; rw [hqueries, hqueries']⟩

theorem playSong_of_nil {song : ι} (h : s.sources song = []) : s.playSong song =
    { s with playing := false, nextToPlay := some song, queries := s.queries ++ [song] } := by
  unfold playSong findPlayableSource
  dsimp only
  rw [h]
  rfl

theorem playSong_of_ne {song : ι} (h : s.sources song ≠ []) :
    ∃ queries, s.playSong song = { s with
      playing := true
      nextToPlay := some song
      playingIndex := s.index song
      queries := queries
      loads := s.loads ++ [song] } := by
  have hlen : ¬ (s.sources song).length < 1 := by
    rw [Nat.lt_one_iff, List.length_eq_zero_iff]
    exact h
  have hne : (s.sources song).length ≠ 0 := by omega
  unfold playSong findPlayableSource
  dsimp only
  rw [if_neg hlen]
  dsimp only
  rw [if_neg hne]
  exact decodeNextSongs_queries _ 1 4

theorem playSong_nextToPlay (s : Player ι σ) (song : ι) :
    (s.playSong song).nextToPlay = some song := by
  by_cases h : s.sources song = []
  · rw [playSong_of_nil h]
  · obtain ⟨queries, hplay⟩ := playSong_of_ne h
    rw [hplay]

variable [DecidableEq ι] [DecidableEq κ]

theorem playSong_update (s : Player ι σ) (song : ι) {results : List σ} (h : results ≠ []) :
    (playSong { s with sources := Function.update s.sources song results } song).loads =
        s.loads ++ [song] ∧
      (playSong { s with sources := Function.update s.sources song results } song).nextToPlay =
        some song := by
  have hsources : Function.update s.sources song results song ≠ [] := by
    rw [Function.update_self]
    exact h
  obtain ⟨queries, heq⟩ := playSong_of_ne
    (s := { s with sources := Function.update s.sources song results }) hsources
  rw [heq]
  exact ⟨rfl, rfl⟩

theorem sourcesQueryLoaded_cases (s : Player ι σ) (song : ι) (results : List σ) :
    ((s.sourcesQueryLoaded song results).loads = s.loads ∧
        (s.sourcesQueryLoaded song results).nextToPlay = s.nextToPlay ∧
        (results = [] ∨ s.playing = true ∨ s.nextToPlay = none)) ∨
      (s.sourcesQueryLoaded song results).loads = s.loads ++ [song] ∧
        (s.sourcesQueryLoaded song results).nextToPlay = some song ∧
        results ≠ [] ∧ s.playing = false ∧ s.nextToPlay ≠ none := by
  unfold sourcesQueryLoaded
  by_cases hresults : results = []
  · left
    rw [if_neg (by rw [hresults]; exact lt_irrefl 0)]
    exact ⟨rfl, rfl, .inl hresults⟩
  · rw [if_pos (List.length_pos_iff.mpr hresults)]
    dsimp only
    by_cases hplay : s.playing = false ∧ s.nextToPlay ≠ none
    · right
      rw [if_pos hplay]
      obtain ⟨hloads, hnext⟩ := playSong_update s song hresults
      exact ⟨hloads, hnext, hresults, hplay⟩
    · left
      rw [if_neg hplay]
      refine ⟨rfl, rfl, .inr ?_⟩
      rcases not_and_or.mp hplay with hplaying | hnone
      · exact .inl (Bool.eq_true_of_not_eq_false hplaying)
      · exact .inr (not_not.mp hnone)

theorem updateDecodingStatus_cases (songId : ι → κ) (s : Player ι σ) (i : ℕ) (song : ι)
    (status : JobStatus σ) :
    (s.updateDecodingStatus songId i song status).loads = s.loads ∧
        (s.updateDecodingStatus songId i song status).nextToPlay = s.nextToPlay ∨
      (s.updateDecodingStatus songId i song status).loads = s.loads ++ [song] ∧
        (s.updateDecodingStatus songId i song status).nextToPlay = some song ∧
        s.nextToPlay.map songId = some (songId song) := by
  cases status with
  | null => exact .inl ⟨rfl, rfl⟩
  | progress => exact .inl ⟨rfl, rfl⟩
  | finished source =>
      unfold updateDecodingStatus
      dsimp only
      by_cases hplay : s.playing = false ∧ s.nextToPlay.map songId = some (songId song)
      · right
        rw [if_pos hplay]
        obtain ⟨hloads, hnext⟩ := playSong_update s song (List.cons_ne_nil source [])
        exact ⟨hloads, hnext, hplay.2⟩
      · left
        rw [if_neg hplay]
        exact ⟨rfl, rfl⟩

/-- A reply loads nothing, or one song; and that is the song to play next if it is compared. -/
theorem reply_cases {e : PlayerEvent ι σ} (hreply : e.IsReply) (hs : Fires (next songId) s e s') :
    s'.loads = s.loads ∧ s'.nextToPlay = s.nextToPlay ∨
      ∃ song, s'.loads = s.loads ++ [song] ∧ s'.nextToPlay = some song ∧
        (ForNextToPlay songId s e → s.nextToPlay.map songId = some (songId song)) := by
  cases e with
  | ask song => exact absurd hreply id
  | loadstart => exact absurd hreply id
  | sourcesReply i results =>
      rw [Fires, next, Option.map_eq_some_iff] at hs
      obtain ⟨song, hquery, rfl⟩ := hs
      cases results with
      | none => exact .inl ⟨rfl, rfl⟩
      | some results =>
          rcases sourcesQueryLoaded_cases { s with queries := s.queries.eraseIdx i } song results
            with ⟨hloads, hnext, -⟩ | ⟨hloads, hnext, hresults, hplaying, hasked⟩
          · exact .inl ⟨hloads, hnext⟩
          · right
            refine ⟨song, hloads, hnext, fun hfor => ?_⟩
            obtain ⟨n, hn⟩ := Option.ne_none_iff_exists'.mp hasked
            have heq := hfor song hquery hresults hplaying n hn
            change s.nextToPlay.map songId = some (songId song)
            rw [show s.nextToPlay = some n from hn, Option.map_some, heq]
  | jobReply i status =>
      rw [Fires, next, Option.map_eq_some_iff] at hs
      obtain ⟨song, -, rfl⟩ := hs
      rcases updateDecodingStatus_cases songId s i song status with h | ⟨hloads, hnext, hcompared⟩
      · exact .inl h
      · exact .inr ⟨song, hloads, hnext, fun _ => hcompared⟩

/-- The song to play next is the last one asked for. -/
def PlaysAsked (songId : ι → κ) (l : List (PlayerEvent ι σ)) (s : Player ι σ) : Prop :=
  s.nextToPlay.map songId = (lastAsked l).map songId

omit [DecidableEq ι] [DecidableEq κ] in
theorem lastAsked_append (l : List (PlayerEvent ι σ)) (e : PlayerEvent ι σ) :
    lastAsked (l ++ [e]) = match e.asked with
      | some song => some song
      | none => lastAsked l := by
  rw [lastAsked, List.filterMap_append]
  cases e with
  | ask song => exact List.getLast?_concat
  | sourcesReply _ _ => exact congrArg List.getLast? (List.append_nil _)
  | jobReply _ _ => exact congrArg List.getLast? (List.append_nil _)
  | loadstart => exact congrArg List.getLast? (List.append_nil _)

theorem playsAsked_step {l : List (PlayerEvent ι σ)} (h : PlaysAsked songId l s)
    {e : PlayerEvent ι σ} (hfor : ForNextToPlay songId s e) (hs : Fires (next songId) s e s') :
    PlaysAsked songId (l ++ [e]) s' := by
  have hkept : e.IsReply → PlaysAsked songId l s' := by
    intro hreply
    rcases reply_cases hreply hs with ⟨-, hnext⟩ | ⟨song, -, hnext, hsong⟩
    · rw [PlaysAsked, hnext]
      exact h
    · rw [PlaysAsked, hnext, ← h, hsong hfor]
      rfl
  rw [PlaysAsked, lastAsked_append]
  cases e with
  | ask song =>
      cases hs
      rw [playSong_nextToPlay]
      rfl
  | sourcesReply i results => exact hkept trivial
  | jobReply i status => exact hkept trivial
  | loadstart =>
      rw [Fires, next] at hs
      split_ifs at hs
      cases hs
      exact h

end Player

/-- In a run in which sources that arrive while nothing plays are those of the song to play next,
every song that a reply loads is the last one asked for. -/
theorem loads_last_asked {songId : ι → κ} [DecidableEq ι] [DecidableEq κ] {playlist : List ι}
    {index : ι → ℕ} {sources : ι → List σ} {l : List (PlayerEvent ι σ)} {s s' : Player ι σ}
    (h : Run (fun s e s' => ForNextToPlay songId s e ∧ Fires (Player.next songId) s e s')
      (.create playlist index sources) l s) {e : PlayerEvent ι σ} (hreply : e.IsReply)
    (hs : ForNextToPlay songId s e ∧ Fires (Player.next songId) s e s') {song : ι}
    (hload : s'.loads = s.loads ++ [song]) :
    ∃ asked, lastAsked l = some asked ∧ songId song = songId asked := by
  have hplays : Player.PlaysAsked songId l s := by
    apply h.history (I := Player.PlaysAsked songId)
    · rfl
    · intro l s e s' hplays hs
      exact Player.playsAsked_step hplays hs.1 hs.2
  rcases Player.reply_cases hreply hs.2 with ⟨hsame, -⟩ | ⟨song', hloads, -, hsong⟩
  · have hlength := congrArg List.length (hsame.symm.trans hload)
    rw [List.length_append, List.length_singleton] at hlength
    omega
  · rw [hloads, List.append_cancel_left_eq, List.cons.injEq] at hload
    rw [Player.PlaysAsked, hsong hs.1] at hplays
    obtain ⟨asked, hasked, hid⟩ := Option.map_eq_some_iff.mp hplays.symm
    exact ⟨asked, hasked, by rw [hid, hload.1]⟩

/-- Sources that break the condition load another song than the one to play next. -/
theorem loads_other_song {songId : ι → κ} [DecidableEq ι] [DecidableEq κ] {s s' : Player ι σ}
    {e : PlayerEvent ι σ} (hfor : ¬ ForNextToPlay songId s e)
    (hs : Fires (Player.next songId) s e s') :
    ∃ song next, s'.loads = s.loads ++ [song] ∧ s.nextToPlay = some next ∧
      songId song ≠ songId next := by
  cases e with
  | ask song => exact absurd trivial hfor
  | loadstart => exact absurd trivial hfor
  | jobReply i status => exact absurd trivial hfor
  | sourcesReply i results =>
      cases results with
      | none => exact absurd trivial hfor
      | some results =>
          rw [Fires, Player.next, Option.map_eq_some_iff] at hs
          obtain ⟨song, hquery, rfl⟩ := hs
          rw [ForNextToPlay] at hfor
          push Not at hfor
          obtain ⟨song', hquery', hresults, hplaying, next, hnext, hne⟩ := hfor
          cases hquery.symm.trans hquery'
          rcases Player.sourcesQueryLoaded_cases { s with queries := s.queries.eraseIdx i } song
            results with ⟨-, -, hnone⟩ | ⟨hloads, -⟩
          · rcases hnone with hempty | hplays | hnothing
            · exact absurd hempty hresults
            · exact absurd (hplaying.symm.trans hplays) Bool.false_ne_true
            · cases hnothing.symm.trans hnext
          · exact ⟨song, next, hloads, hnext, hne⟩

def twoSongs : Player ℕ ℕ := .create [0, 1] id (fun _ => [])

def twoAsks : List (PlayerEvent ℕ ℕ) := [.ask 0, .ask 1]

def bothAsked : Player ℕ ℕ := (twoSongs.playSong 0).playSong 1

/-- Both songs are asked for, and the sources of the second one arrive. -/
theorem loads_last_asked_second : ∃ s', Run (Fires (Player.next id)) twoSongs twoAsks bothAsked ∧
    Fires (Player.next id) bothAsked (.sourcesReply 1 (some [7])) s' ∧
    s'.loads = bothAsked.loads ++ [1] ∧
      ∃ asked, lastAsked twoAsks = some asked ∧ id 1 = id asked := by
  have hrun : Run (fun s e s' => ForNextToPlay id s e ∧ Fires (Player.next id) s e s') twoSongs
      twoAsks bothAsked := (Run.single ⟨trivial, rfl⟩).snoc ⟨trivial, rfl⟩
  have hreply : (PlayerEvent.sourcesReply 1 (some [7]) : PlayerEvent ℕ ℕ).IsReply := trivial
  have hfor : ForNextToPlay id bothAsked (.sourcesReply 1 (some [7])) := by
    intro song hsong _ _ next hnext
    cases hsong
    cases hnext
    rfl
  obtain ⟨s', hs, hload⟩ : ∃ s', Fires (Player.next id) bothAsked (.sourcesReply 1 (some [7])) s' ∧
      s'.loads = bothAsked.loads ++ [1] := ⟨_, rfl, rfl⟩
  exact ⟨s', hrun.mono (fun _ _ _ ha => ha.2), hs, hload,
    loads_last_asked hrun hreply ⟨hfor, hs⟩ hload⟩

/-- The first song's sources arrive after the second song was asked for, and the first song is
loaded. -/
theorem loads_first_of_two : ∃ s', Run (Fires (Player.next id)) twoSongs twoAsks bothAsked ∧
    Fires (Player.next id) bothAsked (.sourcesReply 0 (some [7])) s' ∧
    s'.loads = bothAsked.loads ++ [0] ∧ lastAsked twoAsks = some 1 :=
  ⟨_, (Run.single rfl).snoc rfl, rfl, rfl, rfl⟩

end ModMp
