import ModMp.MusicIndexerClauses
import ModMp.Segments

/-!
# The points of the loop

The loop is at a point before and behind each iteration, and behind each item of a list to sort by.
At every point the clauses hold numbers and schema names exactly when every limit and every offset
that the loop processes is a number.
-/

namespace ModMp.MusicIndexer
open CLib Segments

section Points
variable (lib : Library) (query : DbQuery lib.strnatcasecmp)

/-- The loop over these words, from the state `s`, passes the state `t`. -/
inductive Passes : List CString → LoopState → LoopState → Prop
  | here (words : List CString) (s : LoopState) : Passes words s s
  | sorting {noun value : CString} {words items : List CString} {s : LoopState}
      (h : treatment lib query noun = .clause .orderBy) (hitems : items <+: sortItems value) :
      Passes (noun :: value :: words) s (sortLoop lib query s items)
  | returned {noun value : CString} {words : List CString} {s t : LoopState} {status : ℤ}
      (h : nounStep lib query noun value s = .ok (.returned status t)) :
      Passes (noun :: value :: words) s t
  | next {noun value : CString} {words : List CString} {s t u : LoopState}
      (h : nounStep lib query noun value s = .ok (.next t)) (hpasses : Passes words t u) :
      Passes (noun :: value :: words) s u

end Points

section Loop
variable {lib : Library} (query : DbQuery lib.strnatcasecmp)

def proceeds (pair : CString × CString) : Bool :=
  match treatment lib query pair.1 with
  | .condition column => !concatenates column.toDbTableColumn pair.2
  | .clause _ => true
  | .unknown => false

def processed (words : List CString) : List (CString × CString) :=
  (pairs words).takeWhile (proceeds query)

variable {query} {noun value : CString} {s t : LoopState}

theorem nounStep_next_iff (hs : Standard s) :
    (∃ t, nounStep lib query noun value s = .ok (.next t)) ↔ proceeds query (noun, value) := by
  rw [nounStep_eq_treat hs, proceeds]
  cases htreatment : treatment lib query noun with
  | condition column =>
      cases hconcat : concatenates column.toDbTableColumn value with
      | true => simp [treat, hconcat]
      | false =>
          by_cases hadmitted : Admitted column.toDbTableColumn value
          · simp [treat, hconcat, hadmitted]
          · simp [treat, hconcat, hadmitted]
  | clause clause => cases clause <;> exact iff_of_true ⟨_, rfl⟩ rfl
  | unknown => simp [treat]

theorem SafeClauses.passes {words : List CString} (hs : Standard s)
    (h : SafeClauses query s.parameters)
    (hnumeric : ∀ pair ∈ processed query words, Numeric query pair)
    (hpasses : Passes lib query words s t) : SafeClauses query t.parameters := by
  induction hpasses with
  | here words s => exact h
  | sorting htreatment hitems => exact h.sortLoop _
  | @returned noun value words s t status hstep =>
      rw [(nounStep_returned hs hstep).2]
      exact h
  | @next noun value words s t u hstep hpasses ih =>
      have hproceeds := (nounStep_next_iff hs).mp ⟨t, hstep⟩
      have hprocessed : processed query (noun :: value :: words) =
          (noun, value) :: processed query words := List.takeWhile_cons_of_pos hproceeds
      rw [hprocessed] at hnumeric
      refine ih (hs.next hstep) (h.next hs (hnumeric _ List.mem_cons_self) hstep) ?_
      exact fun pair hpair => hnumeric pair (List.mem_cons_of_mem _ hpair)

theorem numeric_of_passes (words : List CString) (hs : Standard s)
    (h : ∀ t, Passes lib query words s t → SafeClauses query t.parameters)
    {pair : CString × CString} (hpair : pair ∈ processed query words) : Numeric query pair := by
  induction words using pairs.induct generalizing s with
  | case1 noun value words ih =>
      by_cases hproceeds : proceeds query (noun, value) = true
      · have hprocessed : processed query (noun :: value :: words) =
            (noun, value) :: processed query words := List.takeWhile_cons_of_pos hproceeds
        obtain ⟨t, hstep⟩ := (nounStep_next_iff hs).mpr hproceeds
        rw [hprocessed, List.mem_cons] at hpair
        rcases hpair with rfl | hpair
        · have hsafe := h t (.next hstep (.here words t))
          rw [nounStep_eq_treat hs] at hstep
          rintro (htreatment | htreatment)
          · rw [htreatment] at hstep
            cases hstep
            exact hsafe .limit value (by simp [LoopState.setValue, DbQueryParameters.setValue])
          · rw [htreatment] at hstep
            cases hstep
            exact hsafe .offset value (by simp [LoopState.setValue, DbQueryParameters.setValue])
        · exact ih (hs.next hstep) (fun u hu => h u (.next hstep hu)) hpair
      · have hprocessed : processed query (noun :: value :: words) = [] :=
          List.takeWhile_cons_of_neg hproceeds
        rw [hprocessed] at hpair
        exact absurd hpair List.not_mem_nil
  | case2 words hwords =>
      rw [processed, pairs_of_unpaired hwords] at hpair
      exact absurd hpair List.not_mem_nil

end Loop

section Call
variable {lib : Library}

/-- The call's loop passes this state. -/
def MusicQuery.Passes (q : MusicQuery lib) (query : DbQuery lib.strnatcasecmp) (t : LoopState) :
    Prop :=
  q.known = some query ∧ 4 ≤ q.queryNouns.length ∧
    MusicIndexer.Passes lib query (q.queryNouns.drop 2) q.loopStart t

/-- The clauses hold numbers and schema names at every point of the loop exactly when every limit
and offset that it processes is a number. -/
theorem clauses_safe_iff (q : MusicQuery lib) :
    (∀ query t, q.Passes query t → SafeClauses query t.parameters) ↔
      ∀ query, q.known = some query →
        ∀ pair ∈ processed query (q.queryNouns.drop 2), Numeric query pair := by
  have hstart : Standard q.loopStart := .init _ _
  constructor
  · intro h query hknown pair hpair
    by_cases hlength : 4 ≤ q.queryNouns.length
    · exact numeric_of_passes _ hstart (fun t ht => h query t ⟨hknown, hlength, ht⟩) hpair
    · have hshort : (q.queryNouns.drop 2).length < 2 := by
        rw [List.length_drop]
        omega
      rw [processed, pairs_of_short hshort] at hpair
      exact absurd hpair List.not_mem_nil
  · rintro h query t ⟨hknown, -, hpasses⟩
    exact SafeClauses.init.passes hstart (h query hknown) hpasses

end Call

def dropRequest : MusicQuery songsLibrary :=
  songsRequest ["db", "songs", "limit", "1; DROP TABLE Songs"]

theorem limit_passes_statement : ∃ t, dropRequest.Passes songsQuery t ∧
    (t.parameters.sqlClauses .limit).value = some (CString.ofAscii "1; DROP TABLE Songs") ∧
    ¬ @SafeClauses songsLibrary songsQuery t.parameters := by
  refine ⟨_, ⟨rfl, by decide, .next rfl (.here _ _)⟩, rfl, ?_⟩
  intro hsafe
  have hnumber : IsNumber (CString.ofAscii "1; DROP TABLE Songs").bytes := hsafe .limit _ rfl
  exact absurd hnumber (by decide)

end ModMp.MusicIndexer
