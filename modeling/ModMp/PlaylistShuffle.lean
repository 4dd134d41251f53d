import Mathlib.Data.Set.Function
import ModMp.Shuffles

/-!
# The shuffle of a playlist

`shuffle` fills a new array with the songs. For each song but the first it draws a place in the part
filled so far or right behind it; the song goes there, and the song that was there goes to the end.
What is read behind the end of an array is `undefined`, and a write there extends the array. Each
song object keeps the place that it was given last. The places drawn are a parameter.
-/

namespace ModMp.Playlist
open Shuffles

variable {σ : Type}

/-- An entry of an array, where `undefined` is `none`. -/
def arrayGet (a : List (Option σ)) (i : ℕ) : Option σ := a[i]?.getD none

def arraySet (a : List (Option σ)) (i : ℕ) (value : Option σ) : List (Option σ) :=
  if i < a.length then a.set i value
  else a ++ List.replicate (i - a.length) none ++ [value]

structure Shuffling (σ : Type) where
  shuffledPlaylist : List (Option σ)
  shuffledIndex : σ → Option ℕ

section Shuffle
variable [DecidableEq σ]

def Shuffling.setIndex (s : Shuffling σ) (song : σ) (i : ℕ) : Shuffling σ :=
  { s with shuffledIndex := Function.update s.shuffledIndex song (some i) }

def shuffleStep (song : σ) (i random : ℕ) (s : Shuffling σ) : Shuffling σ :=
  let s := { s with
    shuffledPlaylist := arraySet s.shuffledPlaylist i (arrayGet s.shuffledPlaylist random) }
  let s := match arrayGet s.shuffledPlaylist i with
    | some moved => s.setIndex moved i
    | none => s
  let s := { s with shuffledPlaylist := arraySet s.shuffledPlaylist random (some song) }
  s.setIndex song random

/-- The loop over the songs from `i` on. -/
def shuffleLoop (random : ℕ → ℕ) : ℕ → List σ → Shuffling σ → Shuffling σ
  | _, [], s => s
  | i, song :: songs, s => shuffleLoop random (i + 1) songs (shuffleStep song i (random i) s)

def shuffle (songs : List σ) (random : ℕ → ℕ) (shuffledIndex : σ → Option ℕ) : Shuffling σ :=
  shuffleLoop random 1 songs.tail ⟨arraySet [] 0 songs.head?, shuffledIndex⟩

theorem shuffleStep_shuffledPlaylist (song : σ) (i random : ℕ) (s : Shuffling σ) :
    (shuffleStep song i random s).shuffledPlaylist =
      arraySet (arraySet s.shuffledPlaylist i (arrayGet s.shuffledPlaylist random)) random
        (some song) := by
  unfold shuffleStep
  dsimp only
  cases arrayGet (arraySet s.shuffledPlaylist i (arrayGet s.shuffledPlaylist random)) i <;> rfl

omit [DecidableEq σ] in
theorem arraySet_length (a : List (Option σ)) (value : Option σ) :
    arraySet a a.length value = a ++ [value] := by
  rw [arraySet, if_neg (lt_irrefl _), Nat.sub_self, List.replicate_zero, List.append_nil]

omit [DecidableEq σ] in
theorem arraySet_of_lt {a : List (Option σ)} {i : ℕ} (h : i < a.length) (value : Option σ) :
    arraySet a i value = a.set i value := if_pos h

theorem shuffleStep_playlist (song : σ) {s : Shuffling σ} {l : List σ} {random : ℕ}
    (hs : s.shuffledPlaylist = l.map some) (hrandom : random ≤ l.length) :
    (shuffleStep song l.length random s).shuffledPlaylist =
      (insideOut l song random).map some := by
  have hlength : l.length = (l.map some).length := (List.length_map _).symm
  have hlt : random < (l.map some ++ [arrayGet (l.map some) random]).length := by
    rw [List.length_append, List.length_map, List.length_singleton]
    exact Nat.lt_succ_of_le hrandom
  rw [shuffleStep_shuffledPlaylist, hs, hlength, arraySet_length, arraySet_of_lt hlt]
  rcases hrandom.lt_or_eq with hlt | rfl
  · have hget : arrayGet (l.map some) random = some l[random] := by
      rw [arrayGet, List.getElem?_map, List.getElem?_eq_getElem hlt]
      rfl
    rw [hget, insideOut_of_lt song hlt, List.set_append_left _ _ (by rwa [← hlength]),
      List.map_append, List.map_set]
    rfl
  · rw [insideOut_length, List.set_append_right _ _ (le_of_eq hlength.symm), ← hlength,
      Nat.sub_self, List.map_append]
    rfl

theorem shuffleLoop_playlist {random : ℕ → ℕ} (hrandom : ∀ i, random i ≤ i) (songs : List σ)
    {s : Shuffling σ} {l : List σ} (hs : s.shuffledPlaylist = l.map some) :
    (shuffleLoop random l.length songs s).shuffledPlaylist =
      (shuffleInto random l songs).map some := by
  induction songs generalizing l s with
  | nil => exact hs
  | cons song songs ih =>
      have hstep := shuffleStep_playlist song hs (hrandom l.length)
      rw [shuffleLoop, shuffleInto, ← length_insideOut l song (random l.length)]
      exact ih hstep

theorem shuffle_playlist {random : ℕ → ℕ} (hrandom : ∀ i, random i ≤ i) {songs : List σ}
    (hne : songs ≠ []) (shuffledIndex : σ → Option ℕ) :
    (shuffle songs random shuffledIndex).shuffledPlaylist =
      (shuffleInto random [] songs).map some := by
  obtain ⟨song, songs, rfl⟩ := List.exists_cons_of_ne_nil hne
  have hfirst : insideOut [] song (random 0) = [song] := by
    rw [Nat.le_zero.mp (hrandom 0)]
    rfl
  rw [shuffleInto, List.length_nil, hfirst]
  exact shuffleLoop_playlist hrandom songs (l := [song]) rfl

end Shuffle

/-- What the loop draws for `n` songs: a place up to `i` for each `i` from 1 to `n - 1`. -/
def Choices (n : ℕ) : Type := (i : Fin (n - 1)) → Fin (i + 2)

namespace Choices
variable {n : ℕ}

def draws (c : Choices n) (i : ℕ) : ℕ :=
  if h : 0 < i ∧ i < n then c ⟨i - 1, by omega⟩ else 0

theorem draws_succ (c : Choices n) (i : Fin (n - 1)) : c.draws (i + 1) = c i := by
  have hi := i.isLt
  rw [draws, dif_pos ⟨by omega, by omega⟩]
  rfl

theorem draws_le (c : Choices n) (i : ℕ) : c.draws i ≤ i := by
  unfold draws
  split_ifs with h
  · have hlt := (c ⟨i - 1, by omega⟩).isLt
    dsimp only at hlt
    omega
  · exact Nat.zero_le i

theorem ext_draws {c c' : Choices n} (h : ∀ i < n, c.draws i = c'.draws i) : c = c' := by
  funext i
  have hi := i.isLt
  apply Fin.ext
  rw [← draws_succ, ← draws_succ]
  exact h (i + 1) (by omega)

theorem exists_draws {r : ℕ → ℕ} (hr : ∀ i, r i ≤ i) :
    ∃ c : Choices n, ∀ i < n, c.draws i = r i := by
  refine ⟨fun i => ⟨r (i + 1), Nat.lt_succ_of_le (hr (i + 1))⟩, fun i hi => ?_⟩
  cases i with
  | zero => exact (Nat.le_zero.mp (draws_le _ 0)).trans (Nat.le_zero.mp (hr 0)).symm
  | succ i => exact draws_succ _ ⟨i, by omega⟩

end Choices

/-- For distinct songs the choices and the orderings of the songs correspond one to one. -/
theorem shuffle_bijOn [DecidableEq σ] (songs : List σ) (hne : songs ≠ []) (hnodup : songs.Nodup)
    (shuffledIndex : σ → Option ℕ) :
    Set.BijOn
      (fun c : Choices songs.length => (shuffle songs c.draws shuffledIndex).shuffledPlaylist)
      Set.univ {playlist | ∃ ordering : List σ, ordering.Perm songs ∧
        playlist = ordering.map some} := by
  refine ⟨fun c _ => ?_, fun c _ c' _ heq => ?_, ?_⟩
  · exact ⟨_, perm_shuffleInto c.draws_le [] songs, shuffle_playlist c.draws_le hne _⟩
  · dsimp only at heq
    rw [shuffle_playlist c.draws_le hne, shuffle_playlist c'.draws_le hne] at heq
    have hlists := List.map_injective_iff.mpr (Option.some_injective σ) heq
    exact Choices.ext_draws (shuffleInto_injective c.draws_le c'.draws_le hnodup hlists)
  · rintro playlist ⟨ordering, hperm, rfl⟩
    obtain ⟨r, hr, hordering⟩ := exists_shuffleInto hperm
    obtain ⟨c, hc⟩ := Choices.exists_draws (n := songs.length) hr
    refine ⟨c, Set.mem_univ c, ?_⟩
    dsimp only
    rw [shuffle_playlist c.draws_le hne, ← hordering]
    refine congrArg (List.map some) (shuffleInto_congr (fun i hi => hc i ?_))
    rwa [List.length_nil, zero_add] at hi

/-- Three songs. -/
theorem shuffle_bijOn_three : Set.BijOn
    (fun c : Choices 3 => (shuffle [0, 1, 2] c.draws (fun _ => none)).shuffledPlaylist)
    Set.univ {playlist | ∃ ordering : List ℕ, ordering.Perm [0, 1, 2] ∧
      playlist = ordering.map some} :=
  shuffle_bijOn [0, 1, 2] (by decide) (by decide) _

end ModMp.Playlist
