import ModMp.PlayerUi
import ModMp.PlaylistShuffle

/-!
# The places that a shuffle gives to the songs

Each iteration gives a place to the song that it reads and to the song that it moves. The song at
the first place gets it only from an iteration that draws this place, so the first song, which no
iteration reads, may be left without its place.
-/

namespace ModMp.Playlist
open Shuffles

variable {σ κ ρ : Type} [DecidableEq σ]

/-- The song at `p` has the place `p`. -/
def StampedAt (l : List σ) (shuffledIndex : σ → Option ℕ) (p : ℕ) : Prop :=
  ∀ song, l[p]? = some song → shuffledIndex song = some p

omit [DecidableEq σ] in
theorem StampedAt.congr {l l' : List σ} {index index' : σ → Option ℕ} {p : ℕ}
    (hget : l'[p]? = l[p]?) (hindex : ∀ song, l[p]? = some song → index' song = index song) :
    StampedAt l' index' p ↔ StampedAt l index p := by
  refine forall_congr' fun song => ?_
  rw [hget]
  exact imp_congr_right fun hsong => by rw [hindex song hsong]

theorem shuffleStep_shuffledIndex (song : σ) {s : Shuffling σ} {l : List σ} {random : ℕ}
    (hs : s.shuffledPlaylist = l.map some) :
    (shuffleStep song l.length random s).shuffledIndex =
      Function.update (l[random]?.elim s.shuffledIndex
        (fun moved => Function.update s.shuffledIndex moved (some l.length))) song
          (some random) := by
  have hmoved : arrayGet (arraySet s.shuffledPlaylist l.length
      (arrayGet s.shuffledPlaylist random)) l.length = l[random]? := by
    rw [hs, ← List.length_map (f := some), arraySet_length, arrayGet,
      List.getElem?_append_right le_rfl, Nat.sub_self, List.getElem?_cons_zero, Option.getD_some,
      arrayGet, List.getElem?_map]
    cases l[random]? <;> rfl
  unfold shuffleStep
  dsimp only
  rw [hmoved]
  cases l[random]? <;> rfl

section Step
variable {song : σ} {s : Shuffling σ} {l : List σ} {random : ℕ}
  (hs : s.shuffledPlaylist = l.map some) (hnodup : (l ++ [song]).Nodup)

include hnodup

omit [DecidableEq σ] in
theorem ne_of_mem_before {other : σ} (hmem : other ∈ l) : other ≠ song :=
  (List.nodup_append.mp hnodup).2.2 other hmem song (List.mem_singleton_self song)

include hs

theorem stampedAt_written (hrandom : random ≤ l.length) {p : ℕ}
    (hp : p = random ∨ p = l.length) :
    StampedAt (insideOut l song random) (shuffleStep song l.length random s).shuffledIndex p := by
  intro other hother
  rw [shuffleStep_shuffledIndex song hs]
  by_cases heq : p = random
  · subst heq
    rw [getElem?_insideOut song hrandom, Option.some.injEq] at hother
    rw [← hother, Function.update_self]
  · have hlast : p = l.length := hp.resolve_left heq
    have hlt : random < l.length := by omega
    have hmoved : other = l[random] := by
      rw [insideOut_of_lt song hlt, hlast, ← List.length_set (i := random) (a := song),
        List.getElem?_concat_length] at hother
      exact (Option.some.inj hother).symm
    have hne : l[random] ≠ song := ne_of_mem_before hnodup (List.getElem_mem hlt)
    rw [hmoved, Function.update_of_ne hne, List.getElem?_eq_getElem hlt, Option.elim_some,
      Function.update_self, hlast]

theorem stampedAt_step {p : ℕ} (hne : p ≠ random) (hlt : p < l.length) :
    StampedAt (insideOut l song random) (shuffleStep song l.length random s).shuffledIndex p ↔
      StampedAt l s.shuffledIndex p := by
  have hget : (insideOut l song random)[p]? = l[p]? := by
    rw [insideOut, List.getElem?_set_ne hne.symm, List.getElem?_append_left hlt]
  apply StampedAt.congr hget
  intro other hother
  have hsong : other ≠ song := ne_of_mem_before hnodup (List.mem_of_getElem? hother)
  rw [shuffleStep_shuffledIndex song hs, Function.update_of_ne hsong]
  cases hmoved : l[random]? with
  | none => rfl
  | some moved =>
      have hother_ne : other ≠ moved := by
        rintro rfl
        have hinj := (List.getElem?_inj hlt hnodup.of_append_left).mp (hother.trans hmoved.symm)
        exact hne hinj
      rw [Option.elim_some, Function.update_of_ne hother_ne]

theorem stampedAt_first_iff (hrandom : random ≤ l.length) (hpos : 0 < l.length) :
    StampedAt (insideOut l song random) (shuffleStep song l.length random s).shuffledIndex 0 ↔
      StampedAt l s.shuffledIndex 0 ∨ random = 0 := by
  by_cases hzero : random = 0
  · exact iff_of_true (stampedAt_written hs hnodup hrandom (.inl hzero.symm)) (.inr hzero)
  · rw [stampedAt_step hs hnodup (Ne.symm hzero) hpos, or_iff_left hzero]

theorem stampedAt_behind (hrandom : random ≤ l.length)
    (hrest : ∀ p, 0 < p → StampedAt l s.shuffledIndex p) {p : ℕ} (hp : 0 < p) :
    StampedAt (insideOut l song random) (shuffleStep song l.length random s).shuffledIndex p := by
  by_cases hwritten : p = random ∨ p = l.length
  · exact stampedAt_written hs hnodup hrandom hwritten
  · by_cases hlt : p < l.length
    · exact (stampedAt_step hs hnodup (fun h => hwritten (.inl h)) hlt).mpr (hrest p hp)
    · intro other hother
      have hbound := (List.getElem?_eq_some_iff.mp hother).1
      rw [length_insideOut] at hbound
      omega

end Step

theorem exists_between_succ {P : ℕ → Prop} (m n : ℕ) :
    (∃ i, m ≤ i ∧ i < m + (n + 1) ∧ P i) ↔ P m ∨ ∃ i, m + 1 ≤ i ∧ i < m + 1 + n ∧ P i := by
  constructor
  · rintro ⟨i, hle, hlt, hi⟩
    rcases hle.eq_or_lt with rfl | hle
    · exact .inl hi
    · exact .inr ⟨i, hle, by omega, hi⟩
  · rintro (hm | ⟨i, hle, hlt, hi⟩)
    · exact ⟨m, le_rfl, by omega, hm⟩
    · exact ⟨i, by omega, by omega, hi⟩

/-- Behind the first place every song is stamped, and the first place is stamped by a draw of it. -/
theorem shuffleLoop_stamped {random : ℕ → ℕ} (hrandom : ∀ i, random i ≤ i) (songs : List σ)
    {s : Shuffling σ} {l : List σ} (hne : l ≠ []) (hs : s.shuffledPlaylist = l.map some)
    (hnodup : (l ++ songs).Nodup) (hrest : ∀ p, 0 < p → StampedAt l s.shuffledIndex p) :
    (∀ p, StampedAt (shuffleInto random l songs)
        (shuffleLoop random l.length songs s).shuffledIndex p) ↔
      StampedAt l s.shuffledIndex 0 ∨
        ∃ i, l.length ≤ i ∧ i < l.length + songs.length ∧ random i = 0 := by
  induction songs generalizing l s with
  | nil =>
      refine ⟨fun h => .inl (h 0), fun h p => ?_⟩
      rcases Nat.eq_zero_or_pos p with rfl | hp
      · refine h.resolve_right ?_
        rintro ⟨i, hle, hlt, -⟩
        rw [List.length_nil] at hlt
        omega
      · exact hrest p hp
  | cons song songs ih =>
      have hpos : 0 < l.length := List.length_pos_iff.mpr hne
      have hstep : (l ++ [song]).Nodup := by
        rw [List.append_cons] at hnodup
        exact hnodup.of_append_left
      have hplaylist := shuffleStep_playlist song hs (hrandom l.length)
      have hlength := length_insideOut l song (random l.length)
      have hnodup' : (insideOut l song (random l.length) ++ songs).Nodup := by
        rw [List.append_cons] at hnodup
        exact (((perm_insideOut song (hrandom l.length)).append_right songs).nodup_iff).mpr hnodup
      have hnext := ih (List.ne_nil_of_length_pos (by omega)) hplaylist hnodup'
        (fun p hp => stampedAt_behind hs hstep (hrandom l.length) hrest hp)
      rw [hlength] at hnext
      rw [shuffleLoop, shuffleInto, hnext, stampedAt_first_iff hs hstep (hrandom l.length) hpos,
        List.length_cons, exists_between_succ, or_assoc]

namespace Shuffling

/-- Every song of the shuffled playlist knows its position. -/
def Stamped (s : Shuffling σ) : Prop :=
  ∀ p song, s.shuffledPlaylist[p]? = some (some song) → s.shuffledIndex song = some p

def Finds [DecidableEq κ] (songId : σ → κ) (tableIndex : σ → Option ℕ) (s : Shuffling σ)
    (ui : PlayerUi σ ρ) : Prop :=
  ∀ (p : ℕ) (song : σ), s.shuffledPlaylist[p]? = some (some song) →
    (ui.changeSong ⟨songId, tableIndex, s.shuffledIndex⟩ (some song)).playingIndex = some (p : ℤ)

omit [DecidableEq σ] in
theorem Stamped.finds [DecidableEq κ] {s : Shuffling σ} (h : s.Stamped) (songId : σ → κ)
    (tableIndex : σ → Option ℕ) {ui : PlayerUi σ ρ} (hsearching : ui.playlist.searching = false)
    (hshuffled : ui.playlist.shuffled = true) : s.Finds songId tableIndex ui := by
  intro p song hsong
  have hindex : s.shuffledIndex song = some p := h p song hsong
  rw [PlayerUi.changeSong_playingIndex _ hsearching, hshuffled, if_pos rfl]
  dsimp only
  rw [hindex]
  rfl

end Shuffling

theorem shuffle_stamped_iff {songs : List σ} (hne : songs ≠ []) (hnodup : songs.Nodup)
    (c : Choices songs.length) (shuffledIndex : σ → Option ℕ) :
    (shuffle songs c.draws shuffledIndex).Stamped ↔
      (∃ i, 0 < i ∧ i < songs.length ∧ c.draws i = 0) ∨
        shuffledIndex (songs.head hne) = some 0 := by
  have hplaylist := shuffle_playlist c.draws_le hne shuffledIndex
  have hstamped : (shuffle songs c.draws shuffledIndex).Stamped ↔
      ∀ p, StampedAt (shuffleInto c.draws [] songs)
        (shuffle songs c.draws shuffledIndex).shuffledIndex p := by
    refine forall_congr' fun p => forall_congr' fun song => ?_
    rw [hplaylist, List.getElem?_map]
    cases (shuffleInto c.draws [] songs)[p]? with
    | none => simp
    | some other => simp
  rw [hstamped]
  obtain ⟨song, songs, rfl⟩ := List.exists_cons_of_ne_nil hne
  have hfirst : insideOut [] song (c.draws 0) = [song] := by
    rw [Nat.le_zero.mp (c.draws_le 0)]
    rfl
  have hloop := shuffleLoop_stamped c.draws_le songs (s := ⟨[some song], shuffledIndex⟩)
    (List.cons_ne_nil song []) rfl hnodup (by
      intro p hp other hother
      rw [List.getElem?_singleton, if_neg hp.ne'] at hother
      cases hother)
  rw [shuffleInto, List.length_nil, hfirst]
  refine hloop.trans (or_comm.trans (or_congr ?_ ?_))
  · refine exists_congr fun i => ?_
    rw [List.length_singleton]
    exact and_congr_right fun _ => by rw [Nat.add_comm, ← List.length_cons]
  · refine ⟨fun h => h song rfl, fun h other hother => ?_⟩
    rw [← Option.some.inj hother]
    exact h

/-- Every song of the shuffled playlist knows its position, and `change_song` finds it there, if and
only if an iteration draws the first place or the first song had this place from before. -/
theorem shuffle_finds_iff [DecidableEq κ] {songs : List σ} (hne : songs ≠ [])
    (hnodup : songs.Nodup) (c : Choices songs.length) (shuffledIndex tableIndex : σ → Option ℕ)
    (songId : σ → κ) :
    ((shuffle songs c.draws shuffledIndex).Stamped ∧ ∀ ui : PlayerUi σ ρ,
        ui.playlist.searching = false → ui.playlist.shuffled = true →
        (shuffle songs c.draws shuffledIndex).Finds songId tableIndex ui) ↔
      (∃ i, 0 < i ∧ i < songs.length ∧ c.draws i = 0) ∨
        shuffledIndex (songs.head hne) = some 0 := by
  rw [← shuffle_stamped_iff hne hnodup]
  exact ⟨And.left, fun h => ⟨h, fun _ => h.finds songId tableIndex⟩⟩

/-- Three songs, where the second goes to the place of the first. -/
theorem shuffle_finds_three :
    (shuffle [10, 11, 12] (Choices.draws (n := 3) fun i => ⟨i, by omega⟩) fun _ => none).Stamped :=
  ((shuffle_finds_iff (ρ := ℕ) (by decide) (by decide) (fun i => ⟨i, by omega⟩) (fun _ => none)
    (fun _ => none) (id : ℕ → ℕ)).mpr (.inl ⟨1, by decide, by decide, by decide⟩)).1

/-- Three songs that stay where they are. The first has no position then. -/
theorem shuffle_first_unstamped :
    ¬ (shuffle [10, 11, 12] (Choices.draws (n := 3) fun i => ⟨i + 1, by omega⟩)
      fun _ => none).Stamped := by
  intro h
  have hfirst := h 0 10 (by decide)
  revert hfirst
  decide

end ModMp.Playlist
