import ModMp.StringPool

/-!
# The text fields of a song

The fields are pointers into the pool, and NULL in a new `music_file`. As long as each field is set
to a duplicate of a string, the fields point to blocks of their own.
-/

namespace ModMp
open CLib StringPool

/-- The strings of `music_file` and of its `mb_id`. -/
inductive TextField
  | title
  | artist
  | album
  | trackNo
  | discNo
  | discsInSet
  | totalTracks
  | year
  | date
  | mbReleaseId
  | mbRecoridingId
  | mbAlbumId
  | mbArtistId
  | mbAlbumartistId
  deriving DecidableEq

structure MusicFile where
  text : TextField → Option Pointer
  length : ℤ

namespace MusicFile

/-- A song whose fields are NULL. -/
def cleared (length : ℤ) : MusicFile := ⟨fun _ => none, length⟩

def setText (song : MusicFile) (f : TextField) (p : Pointer) : MusicFile :=
  { song with text := Function.update song.text f (some p) }

@[simp] theorem text_setText_self (song : MusicFile) (f : TextField) (p : Pointer) :
    (song.setText f p).text f = some p := by
  dsimp only [setText]
  rw [Function.update_self]

theorem text_setText_of_ne {f g : TextField} (h : g ≠ f) (song : MusicFile) (p : Pointer) :
    (song.setText f p).text g = song.text g := by
  dsimp only [setText]
  rw [Function.update_of_ne h]

/-- Each field that is not NULL points to a block of its own, with some bytes and a NUL. -/
structure Holds (pool : Pool) (song : MusicFile) (content : TextField → Option Bytes) : Prop where
  memory : ∀ f, (song.text f).map (memoryAt pool) = (content f).map (· ++ [0])
  inside : ∀ f p, song.text f = some p → p.block < pool.length
  apart : ∀ f g p q, song.text f = some p → song.text g = some q → f ≠ g → p.block ≠ q.block

variable {pool : Pool} {song : MusicFile} {content : TextField → Option Bytes}

theorem holds_cleared (pool : Pool) (length : ℤ) : Holds pool (cleared length) (fun _ => none) :=
  ⟨fun _ => rfl, nofun, nofun⟩

theorem Holds.isNone_iff (h : Holds pool song content) (f : TextField) :
    song.text f = none ↔ content f = none := by
  rw [← Option.map_eq_none_iff (f := memoryAt pool), h.memory f, Option.map_eq_none_iff]

theorem Holds.setText (h : Holds pool song content) (f : TextField) (l : Bytes) :
    Holds (pstrmemdup pool l).1 (song.setText f (pstrmemdup pool l).2)
      (Function.update content f (some l)) := by
  have hnew : (pstrmemdup pool l).2.block = pool.length := rfl
  have hcases : ∀ g p, (song.setText f (pstrmemdup pool l).2).text g = some p →
      (g = f ∧ p = (pstrmemdup pool l).2) ∨ (g ≠ f ∧ song.text g = some p) := by
    intro g p hp
    by_cases hg : g = f
    · subst hg
      rw [text_setText_self] at hp
      exact Or.inl ⟨rfl, (Option.some.inj hp).symm⟩
    · rw [text_setText_of_ne hg] at hp
      exact Or.inr ⟨hg, hp⟩
  refine ⟨fun g => ?_, fun g p hp => ?_, fun g g' p q hp hq hne => ?_⟩
  · by_cases hg : g = f
    · subst hg
      rw [text_setText_self, Function.update_self, Option.map_some, Option.map_some,
        memoryAt_pstrmemdup]
    · rw [text_setText_of_ne hg, Function.update_of_ne hg, ← h.memory g]
      apply Option.map_congr
      intro p hp
      exact memoryAt_pstrmemdup_of_lt l (h.inside g p hp)
  · rw [length_pstrmemdup]
    rcases hcases g p hp with ⟨-, rfl⟩ | ⟨-, hp⟩
    · exact Nat.lt_succ_self _
    · exact (h.inside g p hp).trans (Nat.lt_succ_self _)
  · rcases hcases g p hp with ⟨hg, rfl⟩ | ⟨-, hp⟩
    · rcases hcases g' q hq with ⟨hg', -⟩ | ⟨-, hq⟩
      · exact absurd (hg.trans hg'.symm) hne
      · rw [hnew]
        exact (h.inside g' q hq).ne'
    · rcases hcases g' q hq with ⟨-, rfl⟩ | ⟨-, hq⟩
      · rw [hnew]
        exact (h.inside g p hp).ne
      · exact h.apart g g' p q hp hq hne

theorem Holds.shows_of_memoryAt (h : Holds pool song content) {pool' : Pool} {f : TextField}
    {s : Option CString} (hs : content f = s.map CString.bytes)
    (hmemory : ∀ p, song.text f = some p → memoryAt pool' p = memoryAt pool p) :
    Shows pool' (song.text f) s := by
  have hbytes := h.memory f
  rw [hs, Option.map_map] at hbytes
  have hshows : Shows pool (song.text f) s := by
    cases s with
    | none => exact (congrArg _ (Option.map_eq_none_iff.mp hbytes)).trans rfl
    | some t =>
        obtain ⟨p, hp, heq⟩ := Option.map_eq_some_iff.mp hbytes
        rw [hp]
        exact congrArg some (stringAt_of_memoryAt heq)
  exact hshows.of_memoryAt hmemory

end MusicFile

end ModMp
