import ModMp.MusicIndexerEffects

/-!
# Pairs that are not accepted

The number of errors never falls, and a pair that is not accepted ends the call with a fault or a
status, or adds an error. So a loop that returns 0 without an error has accepted every pair.
-/

namespace ModMp.MusicIndexer
open CLib Segments

namespace LoopState
variable (s : LoopState)

theorem le_addError (call : ErrorCall) :
    s.errorMessages.numErrors ≤ (s.addError call).errorMessages.numErrors := by
  by_cases hfull : s.errorMessages.Full
  · exact le_of_eq (congrArg (fun r => r.2.numErrors) (errorMessagesAdd_of_full hfull call)).symm
  · have hcount := (errorMessagesAdd_of_not_full hfull call).2.1
    exact hcount.symm ▸ Nat.le_succ _

theorem lt_addError (hroom : ¬ s.errorMessages.Full) (call : ErrorCall) :
    s.errorMessages.numErrors < (s.addError call).errorMessages.numErrors := by
  have hcount := (errorMessagesAdd_of_not_full hroom call).2.1
  exact hcount.symm ▸ Nat.lt_succ_self _

end LoopState

section Errors
variable {lib : Library} {query : DbQuery lib.strnatcasecmp} {s t : LoopState}

theorem le_sortLoop (s : LoopState) (items : List CString) :
    s.errorMessages.numErrors ≤ (sortLoop lib query s items).errorMessages.numErrors := by
  induction items generalizing s with
  | nil => exact le_rfl
  | cons item items ih =>
      rw [sortLoop, List.foldl_cons, ← sortLoop]
      refine le_trans ?_ (ih _)
      cases hterm : sortTerm query item with
      | none =>
          rw [sortStep_of_none hterm]
          exact s.le_addError _
      | some term =>
          rw [sortStep_of_term hterm]
          exact le_rfl

theorem lt_sortLoop {items : List CString} (hroom : ¬ s.errorMessages.Full)
    (h : ∃ item ∈ items, sortTerm query item = none) :
    s.errorMessages.numErrors < (sortLoop lib query s items).errorMessages.numErrors := by
  induction items generalizing s with
  | nil => simp at h
  | cons item items ih =>
      rw [sortLoop, List.foldl_cons, ← sortLoop]
      cases hterm : sortTerm query item with
      | none =>
          rw [sortStep_of_none hterm]
          exact lt_of_lt_of_le (s.lt_addError hroom _) (le_sortLoop _ items)
      | some term =>
          rw [sortStep_of_term hterm]
          refine ih (s := s.setOrder _) hroom ?_
          obtain ⟨other, hmem, hother⟩ := h
          rcases List.mem_cons.mp hmem with rfl | hmem
          · rw [hterm] at hother
            cases hother
          · exact ⟨other, hmem, hother⟩

section Step
variable {noun value : CString}

theorem le_nounStep (hs : Standard s) (h : nounStep lib query noun value s = .ok (.next t)) :
    s.errorMessages.numErrors ≤ t.errorMessages.numErrors := by
  rcases nounStep_next_cases hs h with ⟨column, -, -, -, rfl⟩ | ⟨column, -, -, -, rfl⟩ |
    ⟨clause, -, -, rfl⟩ | ⟨-, rfl⟩
  · exact le_rfl
  · exact (s.addNouns noun value).le_addError _
  · exact le_rfl
  · exact le_sortLoop (s.addNouns noun value) _

theorem nounStep_not_accepted (hs : Standard s) (hroom : ¬ s.errorMessages.Full)
    (h : ¬ Accepted query (noun, value)) :
    nounStep lib query noun value s = .error .nullPool ∨
      (∃ t, nounStep lib query noun value s = .ok (.returned (-9) t)) ∨
      ∃ t, nounStep lib query noun value s = .ok (.next t) ∧
        s.errorMessages.numErrors < t.errorMessages.numErrors := by
  rw [nounStep_eq_treat hs]
  unfold Accepted at h
  cases htreatment : treatment lib query noun with
  | condition column =>
      rw [htreatment] at h
      rw [treat]
      by_cases hconcat : concatenates column.toDbTableColumn value = true
      · rw [if_pos hconcat]
        exact .inl rfl
      · have hadmitted : ¬ Admitted column.toDbTableColumn value :=
          fun hadmitted => h ⟨by simpa using hconcat, hadmitted⟩
        rw [if_neg hconcat, if_neg hadmitted]
        exact .inr (.inr ⟨_, rfl, (s.addNouns noun value).lt_addError hroom _⟩)
  | clause clause =>
      rw [htreatment] at h
      cases clause with
      | orderBy =>
          have hitem : ∃ item ∈ sortItems value, sortTerm query item = none := by
            simpa using h
          exact .inr (.inr ⟨_, rfl, lt_sortLoop (s := s.addNouns noun value) hroom hitem⟩)
      | limit => exact absurd trivial h
      | offset => exact absurd trivial h
      | groupBy => exact absurd trivial h
  | unknown => exact .inr (.inl ⟨_, rfl⟩)

end Step

theorem le_nounLoop {words : List CString} {status : ℤ} (hs : Standard s)
    (h : nounLoop lib query words s = .ok (status, t)) :
    s.errorMessages.numErrors ≤ t.errorMessages.numErrors := by
  induction words using pairs.induct generalizing s with
  | case1 noun value words ih =>
      rcases nounLoop_cons h with ⟨s', hstep, hrest⟩ | ⟨s', hstep, rfl⟩
      · exact le_trans (le_nounStep hs hstep) (ih (hs.next hstep) hrest)
      · rw [(nounStep_returned hs hstep).2]
        exact (s.addNouns noun value).le_addError _
  | case2 words hwords =>
      rw [nounLoop_of_unpaired hwords] at h
      cases h
      exact le_rfl

/-- A loop that returns 0 without an error has accepted every pair. -/
theorem accepted_of_silent {words : List CString} (hs : Standard s)
    (hroom : ¬ s.errorMessages.Full) (h : nounLoop lib query words s = .ok (0, t))
    (hsilent : t.errorMessages.numErrors = s.errorMessages.numErrors) :
    ∀ pair ∈ pairs words, Accepted query pair := by
  induction words using pairs.induct generalizing s with
  | case1 noun value words ih =>
      rw [nounLoop] at h
      by_cases haccepted : Accepted query (noun, value)
      · obtain ⟨s', hstep, heffect⟩ := nounStep_accepted hs haccepted
        rw [hstep] at h
        have hrest := ih (hs.next hstep) (by rwa [heffect.errorMessages]) h
          (by rwa [heffect.errorMessages])
        intro pair hpair
        rcases List.mem_cons.mp hpair with rfl | hpair
        · exact haccepted
        · exact hrest pair hpair
      · exfalso
        rcases nounStep_not_accepted hs hroom haccepted with
          hstep | ⟨s', hstep⟩ | ⟨s', hstep, hlt⟩
        · rw [hstep] at h
          cases h
        · rw [hstep] at h
          cases h
        · rw [hstep] at h
          have hle := le_nounLoop (hs.next hstep) h
          omega
  | case2 words hwords =>
      rw [pairs_of_unpaired hwords]
      exact fun pair hpair => absurd hpair List.not_mem_nil

end Errors

end ModMp.MusicIndexer
