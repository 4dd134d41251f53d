import ModMp.QueueRuns

/-!
# The lock of the decoding queue

Every path through the queue's operations unlocks it, but for one: adding to a full queue returns
at once. A run in which no job is added to a full queue never blocks. From every state such a run
can reach, the queue can be filled, and one more job then leaves it locked.
-/

namespace ModMp
open CLib Runs SlotMask SlotFifo

def QueueSystem.Full {ι : Type} (s : QueueSystem ι) : Prop := ∀ i, Has s.shared.queue.used i

def AddsToFull {ι : Type} (s : QueueSystem ι) (a : ι × Event 64 JobData) : Prop :=
  match a.2 with
  | .accepted _ _ | .refused => s.Full
  | _ => False

variable {ι : Type} {apr : Apr} {s s' : QueueSystem ι} {f : Fifo 64 JobData}

theorem QueueSystem.free_eq (hfree : s.shared.mutexHeld = false) : s.free = s := by
  obtain ⟨⟨_, _, _⟩, _⟩ := s
  cases hfree
  rfl

theorem Follows.full_iff (h : Follows s f) : s.Full ↔ ∀ i, f.Taken i :=
  forall_congr' h.represents.used

def freeSlots (s : QueueSystem ι) : Finset Slot :=
  Finset.univ.filter (fun i => ¬ Has s.shared.queue.used i)

theorem Follows.mem_freeSlots (h : Follows s f) {i : Slot} : i ∈ freeSlots s ↔ ¬ f.Taken i := by
  rw [freeSlots, Finset.mem_filter, and_iff_right (Finset.mem_univ i), h.represents.used]

theorem add_lock (h : Follows s f) (hfree : s.shared.mutexHeld = false) (job : DecodingJob) :
    ∃ r, addDecodingJobQueue job s.shared = .ok r ∧ (r.2.mutexHeld = false ↔ ¬ s.Full) := by
  rw [h.full_iff]
  by_cases hfull : ∀ i, f.Taken i
  · refine ⟨_, add_of_full hfree h.represents hfull job, ?_⟩
    exact iff_of_false (by simp [DecodingQueue.addError]) (not_not.mpr hfull)
  · obtain ⟨i, hi, q', hadd, -⟩ := add_of_not_full hfree h.represents hfull job
    exact ⟨_, hadd, iff_of_true rfl hfull⟩

theorem get_lock (h : Follows s f) (hfree : s.shared.mutexHeld = false) :
    ∃ r, getDecodingJobQueue s.shared = .ok r ∧ r.2.mutexHeld = false := by
  cases hw : f.waiting with
  | nil => exact ⟨_, get_of_empty hfree h.represents hw, rfl⟩
  | cons i rest => exact ⟨_, get_of_cons hfree h.represents hw, rfl⟩

theorem lookup_lock (apr : Apr) (h : Follows s f) (hfree : s.shared.mutexHeld = false)
    (decJob : Option JobRef) :
    ∃ r, doesDecodingJobExsits apr s.shared decJob = .ok r ∧ r.2.2.mutexHeld = false := by
  obtain ⟨found, decJob', d', hlook, hlock, -⟩ :=
    lookup_returns apr hfree h.represents decJob
  exact ⟨_, hlook, hlock⟩

variable [DecidableEq ι]

theorem lock_step (h : Follows s f) (hfree : s.shared.mutexHeld = false)
    {a : ι × Event 64 JobData} (ha : ¬ AddsToFull s a) (hs : QueueStep apr s a s') :
    s'.shared.mutexHeld = false := by
  cases hs with
  | accepted _ job d hadd =>
      obtain ⟨r, hr, hlock⟩ := add_lock h hfree job
      cases hadd.symm.trans hr
      exact hlock.mpr ha
  | refused _ job status d hadd hstatus =>
      obtain ⟨r, hr, hlock⟩ := add_lock h hfree job
      cases hadd.symm.trans hr
      exact hlock.mpr ha
  | handed _ i d hget =>
      obtain ⟨r, hr, hlock⟩ := get_lock h hfree
      cases hget.symm.trans hr
      exact hlock
  | nothing _ d hget =>
      obtain ⟨r, hr, hlock⟩ := get_lock h hfree
      cases hget.symm.trans hr
      exact hlock
  | lookedUp _ decJob r hlook =>
      obtain ⟨r', hr, hlock⟩ := lookup_lock apr h hfree decJob
      cases hlook.symm.trans hr
      exact hlock
  | released _ i d hi hrelease =>
      cases hrelease.symm.trans (releaseSlot_of_free hfree i)
      rfl

/-- What a run without an add to a full queue reaches. -/
theorem lock_run {errorMessages : ErrorMessages} {decoding : Slot → DecodingJob}
    {l : List (ι × Event 64 JobData)}
    (h : Run (fun s a s' => ¬ AddsToFull s a ∧ QueueStep apr s a s')
      (.create ι errorMessages decoding) l s) :
    s.shared.mutexHeld = false ∧ ∃ f, Follows s f := by
  apply h.invariant (I := fun s => s.shared.mutexHeld = false ∧ ∃ f, Follows s f)
  · exact ⟨rfl, _, Follows.start errorMessages decoding⟩
  · intro s a s' hinv hstep
    obtain ⟨hfree, f, hf⟩ := hinv
    have hfreed : FreedStep apr s a s' := by
      rw [FreedStep, QueueSystem.free_eq hfree]
      exact hstep.2
    obtain ⟨f', -, hf'⟩ := hf.step hfreed
    exact ⟨lock_step hf hfree hstep.1 hstep.2, f', hf'⟩

/-- In a run without an add to a full queue the lock is free in every state reached, and every call
from there returns and frees the lock again, but for an add when the queue is full. -/
theorem lock_free_of_no_add_to_full {errorMessages : ErrorMessages}
    {decoding : Slot → DecodingJob} {l : List (ι × Event 64 JobData)}
    (h : Run (fun s a s' => ¬ AddsToFull s a ∧ QueueStep apr s a s')
      (.create ι errorMessages decoding) l s) :
    s.shared.mutexHeld = false ∧
      (∀ job, ∃ r, addDecodingJobQueue job s.shared = .ok r ∧
        (r.2.mutexHeld = false ↔ ¬ s.Full)) ∧
      (∃ r, getDecodingJobQueue s.shared = .ok r ∧ r.2.mutexHeld = false) ∧
      ∀ decJob, ∃ r, doesDecodingJobExsits apr s.shared decJob = .ok r ∧
        r.2.2.mutexHeld = false := by
  obtain ⟨hfree, f, hf⟩ := lock_run h
  exact ⟨hfree, add_lock hf hfree, get_lock hf hfree, lookup_lock apr hf hfree⟩

/-- One job is added and taken. -/
theorem lock_free_one_job : ∃ l s, l.length = 2 ∧
    Run (QueueStep plainApr) blankSystem l s ∧ s.shared.mutexHeld = false := by
  have hnotFull : ¬ blankSystem.Full := fun hfull => absurd (hfull 0) (by decide)
  have hadd : ∀ i, ¬ AddsToFull blankSystem ((), .accepted i (blankJob 1).toJobData) :=
    fun _ => hnotFull
  have hrun : ∃ l s, l.length = 2 ∧
      Run (fun s a s' => ¬ AddsToFull s a ∧ QueueStep plainApr s a s') blankSystem l s :=
    ⟨_, _, rfl, (Run.single ⟨hadd _, .accepted _ () (blankJob 1) _ rfl⟩).snoc
      ⟨id, .handed _ () 0 _ rfl⟩⟩
  obtain ⟨l, s, hl, h⟩ := hrun
  exact ⟨l, s, hl, h.mono (fun _ _ _ ha => ha.2), (lock_free_of_no_add_to_full h).1⟩

theorem exists_accepting_step (h : Follows s f) (hfree : s.shared.mutexHeld = false)
    (hfull : ¬ s.Full) (p : ι) (job : DecodingJob) : ∃ a s' f',
      (¬ AddsToFull s a ∧ QueueStep apr s a s') ∧ Follows s' f' ∧ s'.shared.mutexHeld = false ∧
        (freeSlots s').card < (freeSlots s).card := by
  obtain ⟨i, hi, q', hadd, hq', -⟩ :=
    add_of_not_full hfree h.represents (mt h.full_iff.mpr hfull) job
  have hf' : Follows ⟨{ s.shared with queue := q' }.unlock, s.held⟩
      (f.add i job.toJobData hi) := ⟨hq', h.held, h.holder⟩
  have hsubset : freeSlots ⟨{ s.shared with queue := q' }.unlock, s.held⟩ ⊆ freeSlots s := by
    intro j hj
    rw [hf'.mem_freeSlots, f.taken_add hi] at hj
    exact h.mem_freeSlots.mpr (fun htaken => hj (.inl htaken))
  have hnotMem : i ∉ freeSlots ⟨{ s.shared with queue := q' }.unlock, s.held⟩ := by
    rw [hf'.mem_freeSlots, f.taken_add hi]
    exact fun hfree => hfree (.inr rfl)
  have hlt := Finset.card_lt_card
    ((Finset.ssubset_iff_of_subset hsubset).mpr ⟨i, h.mem_freeSlots.mpr hi, hnotMem⟩)
  exact ⟨(p, .accepted q'.tailSlot job.toJobData), _, _, ⟨hfull, .accepted s p job _ hadd⟩, hf',
    rfl, hlt⟩

theorem exists_run_to_full (apr : Apr) (h : Follows s f) (hfree : s.shared.mutexHeld = false)
    (p : ι) (job : DecodingJob) : ∃ l s' f',
      Run (fun s a s' => ¬ AddsToFull s a ∧ QueueStep apr s a s') s l s' ∧ Follows s' f' ∧
        s'.shared.mutexHeld = false ∧ s'.Full := by
  induction hn : (freeSlots s).card using Nat.strong_induction_on generalizing s f with
  | _ n ih =>
      by_cases hfull : s.Full
      · exact ⟨[], s, f, .nil, h, hfree, hfull⟩
      · obtain ⟨a, s', f', hs, hf', hfree', hlt⟩ := exists_accepting_step h hfree hfull p job
        obtain ⟨l, s'', f'', hrun, hrest⟩ := ih _ (hn ▸ hlt) hf' hfree' rfl
        exact ⟨a :: l, s'', f'', (Run.single hs).trans hrun, hrest⟩

theorem blankSystem_run_to_full : ∃ l s f, Run (QueueStep plainApr) blankSystem l s ∧
    s.shared.mutexHeld = false ∧ Represents s.shared.queue f ∧ ∀ i, f.Taken i := by
  have hstart : Follows blankSystem _ :=
    Follows.start ⟨0, fun _ => fullError.record⟩ (fun _ => blankJob 0)
  obtain ⟨l, s, f, hrun, hf, hfree, hfull⟩ :=
    exists_run_to_full plainApr hstart rfl () (blankJob 1)
  exact ⟨l, s, f, hrun.mono (fun _ _ _ ha => ha.2), hfree, hf.represents, hf.full_iff.mp hfull⟩

/-- A reachable queue with its lock free that an add leaves locked. -/
theorem blankSystem_locked : ∃ l s, Run (QueueStep plainApr) blankSystem l s ∧
    s.shared.mutexHeld = false ∧ ∃ r, addDecodingJobQueue (blankJob 1) s.shared = .ok r ∧
      r.1 = -1 ∧ r.2.mutexHeld = true := by
  obtain ⟨l, s, f, hrun, hfree, hrep, htaken⟩ := blankSystem_run_to_full
  exact ⟨l, s, hrun, hfree, _, add_of_full hfree hrep htaken (blankJob 1), rfl, rfl⟩

end ModMp
