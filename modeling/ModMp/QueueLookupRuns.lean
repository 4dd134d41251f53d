import ModMp.QueueLookup

/-!
# Lookups in runs

A lookup needs the lock. It reports the matching slots in every state that is reached without an add
to a full queue, and in no other state.
-/

namespace ModMp
open CLib Runs SlotMask SlotFifo

section Reachable
variable {ι : Type} [DecidableEq ι] {apr : Apr} {errorMessages : ErrorMessages}
  {decoding : Slot → DecodingJob} {l : List (ι × Event 64 JobData)} {s s' : QueueSystem ι}

/-- A queue whose lock is held stays so. -/
theorem held_step {a : ι × Event 64 JobData} (hheld : s.shared.mutexHeld = true)
    (h : QueueStep apr s a s') : s'.shared.mutexHeld = true := by
  have hlock : s.shared.lock = .error .blocked := by
    rw [DecodingQueue.lock, hheld]
    rfl
  cases h with
  | accepted _ job d hadd =>
      rw [addDecodingJobQueue, hlock] at hadd
      cases hadd
  | refused _ job status d hadd hstatus =>
      rw [addDecodingJobQueue, hlock] at hadd
      cases hadd
  | handed _ i d hget =>
      rw [getDecodingJobQueue, hlock] at hget
      cases hget
  | nothing _ d hget =>
      rw [getDecodingJobQueue, hlock] at hget
      cases hget
  | lookedUp _ decJob r hlook =>
      cases decJob with
      | none =>
          cases hlook
          exact hheld
      | some decJob =>
          rw [doesDecodingJobExsits, hlock] at hlook
          cases hlook
  | released _ i d hi hrelease =>
      rw [releaseSlot, hlock] at hrelease
      cases hrelease

theorem held_of_addsToFull {f : Fifo 64 JobData} (hf : Follows s f)
    (hfree : s.shared.mutexHeld = false) {a : ι × Event 64 JobData} (ha : AddsToFull s a)
    (h : QueueStep apr s a s') : s'.shared.mutexHeld ≠ false := by
  cases h with
  | accepted _ job d hadd =>
      obtain ⟨r, hr, hlock⟩ := add_lock hf hfree job
      cases hadd.symm.trans hr
      exact fun hafter => hlock.mp hafter ha
  | refused _ job status d hadd hstatus =>
      obtain ⟨r, hr, hlock⟩ := add_lock hf hfree job
      cases hadd.symm.trans hr
      exact fun hafter => hlock.mp hafter ha
  | handed _ i d hget => exact ha.elim
  | nothing _ d hget => exact ha.elim
  | lookedUp _ decJob r hlook => exact ha.elim
  | released _ i d hi hrelease => exact ha.elim

/-- The lock is free at the end of a run exactly when no step has added to a full queue. -/
theorem run_free_iff (h : Run (QueueStep apr) (.create ι errorMessages decoding) l s) :
    s.shared.mutexHeld = false ↔
      Run (fun s a s' => ¬ AddsToFull s a ∧ QueueStep apr s a s')
        (.create ι errorMessages decoding) l s := by
  refine ⟨fun hfree => ?_, fun hrun => (lock_run hrun).1⟩
  induction h with
  | nil => exact .nil
  | @snoc l s s' a hrun hs ih =>
      have hbefore : s.shared.mutexHeld = false := by
        by_contra hheld
        rw [held_step (Bool.eq_true_of_not_eq_false hheld) hs] at hfree
        cases hfree
      have hinv := ih hbefore
      refine hinv.snoc ⟨fun hfull => ?_, hs⟩
      obtain ⟨-, f, hf⟩ := lock_run hinv
      exact held_of_addsToFull hf hbefore hfull hs hfree

/-- The lookup is exact for every job exactly in the states reached without an add to a full
queue. -/
theorem lookup_exact_iff (hequiv : Equivalence (fun a b => apr.strnatcmp a b = 0))
    (h : Run (QueueStep apr) (.create ι errorMessages decoding) l s) :
    (∀ decJob, ExactLookup apr s.shared decJob) ↔
      Run (fun s a s' => ¬ AddsToFull s a ∧ QueueStep apr s a s')
        (.create ι errorMessages decoding) l s := by
  rw [← run_free_iff h]
  constructor
  · intro hexact
    obtain ⟨found, decJob', d', hlook, -⟩ := hexact (.slot 0)
    by_contra hheld
    rw [doesDecodingJobExsits, DecodingQueue.lock, if_pos (by simpa using hheld)] at hlook
    cases hlook
  · intro hfree decJob
    obtain ⟨-, f, hf⟩ := lock_run ((run_free_iff h).mp hfree)
    exact lookup_exact hequiv hfree hf.represents.disjoint decJob

end Reachable

theorem plainApr_equivalence : Equivalence (fun a b => plainApr.strnatcmp a b = 0) := by
  have hiff : ∀ a b, plainApr.strnatcmp a b = 0 ↔ a = b := by
    intro a b
    simp [plainApr]
  refine ⟨fun a => (hiff a a).mpr rfl, fun {a b} h => ?_, fun {a b c} h h' => ?_⟩
  · exact (hiff b a).mpr ((hiff a b).mp h).symm
  · exact (hiff a c).mpr (((hiff a b).mp h).trans ((hiff b c).mp h'))

/-- One job is added. -/
theorem lookup_exact_one_job : ∃ l s, Run (QueueStep plainApr) blankSystem l s ∧ l.length = 1 ∧
    ∀ decJob, ExactLookup plainApr s.shared decJob := by
  have hnotFull : ¬ blankSystem.Full := fun hfull => absurd (hfull 0) (by decide)
  have hadd : ∀ i, ¬ AddsToFull blankSystem ((), .accepted i (blankJob 1).toJobData) :=
    fun _ => hnotFull
  have hrun : ∃ l s, l.length = 1 ∧
      Run (fun s a s' => ¬ AddsToFull s a ∧ QueueStep plainApr s a s') blankSystem l s :=
    ⟨_, _, rfl, Run.single ⟨hadd _, .accepted _ () (blankJob 1) _ rfl⟩⟩
  obtain ⟨l, s, hl, h⟩ := hrun
  have hsteps := h.mono (fun _ _ _ ha => ha.2)
  exact ⟨l, s, hsteps, hl, (lookup_exact_iff plainApr_equivalence hsteps).mpr h⟩

/-- A reachable queue in which a lookup never returns. -/
theorem lookup_blocked : ∃ l s, Run (QueueStep plainApr) blankSystem l s ∧
    doesDecodingJobExsits plainApr s.shared (some (.own (blankJob 1))) = .error .blocked ∧
    ¬ ExactLookup plainApr s.shared (.own (blankJob 1)) := by
  obtain ⟨l, s, f, hrun, hfree, hrep, htaken⟩ := blankSystem_run_to_full
  have hadd := add_of_full hfree hrep htaken (blankJob 1)
  have hblocked : doesDecodingJobExsits plainApr
      ({ s.shared with mutexHeld := true }.addError fullError) (some (.own (blankJob 1))) =
        .error .blocked := rfl
  refine ⟨_, _, hrun.snoc (.refused s () (blankJob 1) (-1) _ hadd (by decide)), hblocked, ?_⟩
  rintro ⟨found, decJob', d', hlook, -⟩
  rw [hblocked] at hlook
  cases hlook

end ModMp
