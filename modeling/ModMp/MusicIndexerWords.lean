import ModMp.MusicIndexerErrors

/-!
# Words that are dropped

A call that returns 0 without an error has accepted every pair, and the parameters then say what the
pairs say. It has still dropped a last word without a value, and the items that a long sort list has
behind its copy.
-/

namespace ModMp.MusicIndexer
open CLib Segments

section Call
variable {lib : Library} (query : DbQuery lib.strnatcasecmp)

def listedItems (l : List (CString × CString)) : List CString :=
  (givenValues query .orderBy l).flatMap (fun value => strtok value commaByte)

/-- The parameters say what the pairs say. -/
structure Reflects (l : List (CString × CString)) (p : DbQueryParameters) : Prop where
  conditions : p.whereConditions = l.filterMap (conditionOf query)
  limit : (p.sqlClauses .limit).value = (givenValues query .limit l).getLast?
  offset : (p.sqlClauses .offset).value = (givenValues query .offset l).getLast?
  order : ∃ terms,
    List.Forall₂ (fun item term => sortTerm query item = some term) (listedItems query l) terms ∧
      (p.sqlClauses .orderBy).value = listText terms

/-- If the call returns 0 without an error, then the words behind the type are pairs, and the
parameters say what they say. -/
def NothingDropped (q : MusicQuery lib) : Prop :=
  ∀ q', getMusicQuery q = .ok (0, q') → q'.errorMessages = q.errorMessages →
    Even (q.queryNouns.drop 2).length ∧
      (pairs (q.queryNouns.drop 2) ≠ [] →
        ∃ p, q'.dbQueryParameters = some p ∧ Reflects query (pairs (q.queryNouns.drop 2)) p)

/-- The items of the copies give the same text as all items. -/
def CutsHarmless (l : List (CString × CString)) : Prop :=
  ∃ terms,
    List.Forall₂ (fun item term => sortTerm query item = some term) (listedItems query l) terms ∧
      listText (copiedTerms query l) = listText terms

variable {query}

theorem treatment_of_mem_givenValues {clause : SqlClause} {value : CString}
    {l : List (CString × CString)} (h : value ∈ givenValues query clause l) :
    ∃ noun, (noun, value) ∈ l ∧ treatment lib query noun = .clause clause := by
  obtain ⟨⟨noun, value'⟩, hpair, hvalue⟩ := List.mem_filterMap.mp h
  unfold givenValue at hvalue
  cases htreatment : treatment lib query noun with
  | condition column => simp [htreatment] at hvalue
  | unknown => simp [htreatment] at hvalue
  | clause other =>
      simp only [htreatment, Option.ite_none_right_eq_some, Option.some.injEq] at hvalue
      obtain ⟨rfl, rfl⟩ := hvalue
      exact ⟨noun, hpair, htreatment⟩

theorem cutsHarmless_of_short {l : List (CString × CString)}
    (h : ∀ pair ∈ l, Accepted query pair)
    (hshort : ∀ value ∈ givenValues query .orderBy l, value.length ≤ maxSize) :
    CutsHarmless query l := by
  have hcopies : listedItems query l = (givenValues query .orderBy l).flatMap sortItems := by
    refine List.flatMap_congr (fun value hvalue => ?_)
    have hcopy : strndup value maxSize = value :=
      CString.eq_of_bytes (List.take_of_length_le (hshort value hvalue))
    rw [sortItems, hcopy]
  have hterms : copiedTerms query l = (listedItems query l).filterMap (sortTerm query) := by
    rw [hcopies, List.filterMap_flatMap]
    rfl
  refine ⟨copiedTerms query l, ?_, rfl⟩
  rw [hterms]
  refine forall₂_filterMap (fun item hitem => ?_)
  rw [hcopies] at hitem
  obtain ⟨value, hvalue, hitem⟩ := List.mem_flatMap.mp hitem
  obtain ⟨noun, hpair, htreatment⟩ := treatment_of_mem_givenValues hvalue
  have haccepted := h _ hpair
  unfold Accepted at haccepted
  rw [htreatment] at haccepted
  exact haccepted item hitem

theorem cutsHarmless_nil : CutsHarmless query [] :=
  cutsHarmless_of_short (fun _ h => absurd h List.not_mem_nil)
    (fun _ h => absurd h List.not_mem_nil)

/-- Accepted pairs leave parameters that say what the pairs say, except for the cut items. -/
theorem reflects_iff {l : List (CString × CString)} {s t : LoopState}
    (hstart : s.parameters = dbQueryParametersInit) (heffect : Effect query l s t) :
    Reflects query l t.parameters ↔ CutsHarmless query l := by
  have horder : (t.parameters.sqlClauses .orderBy).value = listText (copiedTerms query l) := by
    rw [heffect.order, hstart]
    exact appendTerms_listText [] _
  constructor
  · intro hreflects
    obtain ⟨terms, hterms, hvalue⟩ := hreflects.order
    exact ⟨terms, hterms, horder.symm.trans hvalue⟩
  · rintro ⟨terms, hterms, htext⟩
    refine ⟨?_, ?_, ?_, terms, hterms, horder.trans htext⟩
    · rw [heffect.conditions, hstart]
      exact List.nil_append _
    · rw [heffect.words .limit (by decide), hstart]
      exact Option.or_none
    · rw [heffect.words .offset (by decide), hstart]
      exact Option.or_none

/-- Nothing is dropped silently exactly when some pair is not accepted, or there is no odd word and
no harmful cut. -/
theorem nothingDropped_iff {q : MusicQuery lib} (hknown : q.known = some query)
    (hroom : ¬ q.errorMessages.Full) :
    NothingDropped query q ↔
      (∃ pair ∈ pairs (q.queryNouns.drop 2), ¬ Accepted query pair) ∨
        Even (q.queryNouns.drop 2).length ∧
          ((∀ value ∈ givenValues query .orderBy (pairs (q.queryNouns.drop 2)),
              value.length ≤ maxSize) ∨
            CutsHarmless query (pairs (q.queryNouns.drop 2))) := by
  have hstart : Standard q.loopStart := .init _ _
  have hshort : q.queryNouns.length < 4 → pairs (q.queryNouns.drop 2) = [] := by
    intro hlength
    apply pairs_of_short
    rw [List.length_drop]
    omega
  obtain ⟨type, hcall⟩ := getMusicQuery_of_known hknown
  by_cases haccepted : ∀ pair ∈ pairs (q.queryNouns.drop 2), Accepted query pair
  · obtain ⟨t, hloop, heffect⟩ := nounLoop_accepted hstart haccepted
    rw [or_iff_right (by simpa using haccepted),
      or_iff_right_of_imp (cutsHarmless_of_short haccepted)]
    constructor
    · intro h
      by_cases hlength : q.queryNouns.length < 4
      · rw [if_pos hlength] at hcall
        refine ⟨(h _ hcall rfl).1, ?_⟩
        rw [hshort hlength]
        exact cutsHarmless_nil
      · rw [if_neg hlength, hloop] at hcall
        obtain ⟨heven, hreflects⟩ := h _ hcall heffect.errorMessages
        refine ⟨heven, ?_⟩
        by_cases hnil : pairs (q.queryNouns.drop 2) = []
        · rw [hnil]
          exact cutsHarmless_nil
        · obtain ⟨p, hp, hreflects⟩ := hreflects hnil
          cases hp
          exact (reflects_iff rfl heffect).mp hreflects
    · rintro ⟨heven, hcuts⟩ q' hresult -
      refine ⟨heven, fun hne => ?_⟩
      rw [hcall, if_neg (mt hshort hne), hloop] at hresult
      cases hresult
      exact ⟨t.parameters, rfl, (reflects_iff rfl heffect).mpr hcuts⟩
  · refine iff_of_true ?_ (.inl (by simpa using haccepted))
    intro q' hresult hsilent
    exfalso
    rw [hcall] at hresult
    by_cases hlength : q.queryNouns.length < 4
    · rw [hshort hlength] at haccepted
      exact haccepted (fun pair hpair => absurd hpair List.not_mem_nil)
    · rw [if_neg hlength] at hresult
      cases hloop : nounLoop lib query (q.queryNouns.drop 2) q.loopStart with
      | error fault =>
          rw [hloop] at hresult
          cases hresult
      | ok r =>
          obtain ⟨status, t⟩ := r
          rw [hloop] at hresult
          cases hresult
          exact haccepted (accepted_of_silent hstart hroom hloop
            (congrArg ErrorMessages.numErrors hsilent))

end Call

/-- A condition and a limit. -/
theorem nothingDropped_length : @NothingDropped songsLibrary songsQuery
    (songsRequest ["db", "songs", "length", "5", "limit", "7"]) := by
  refine (nothingDropped_iff rfl (by decide)).mpr (.inr ⟨by decide, .inl ?_⟩)
  intro value hvalue
  exact absurd hvalue List.not_mem_nil

/-- A key without a value. -/
theorem dropped_key : ¬ @NothingDropped songsLibrary songsQuery
      (songsRequest ["db", "songs", "length"]) ∧
    ¬ @NothingDropped songsLibrary songsQuery
      (songsRequest ["db", "songs", "limit", "5", "length"]) := by
  constructor
  · intro h
    exact absurd (h _ rfl rfl).1 (by decide)
  · intro h
    exact absurd (h _ rfl rfl).1 (by decide)

end ModMp.MusicIndexer
