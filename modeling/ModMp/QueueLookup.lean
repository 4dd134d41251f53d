import ModMp.QueueLock

/-!
# What the lookup reports

The lookup compares the occupied slots with the job one by one, in increasing order, and goes on
with the slot it has found in the job's place. Since the comparison is an equivalence, the slots
found are those that match the job, and only their status texts are written.
-/

namespace ModMp
open CLib Runs SlotMask SlotFifo

section Loop
variable (apr : Apr)

/-- One iteration of the lookup, for the slot `i`. -/
def compareSlot (r : ℤ × JobRef × Queue) (i : Slot) : ℤ × JobRef × Queue :=
  if sameTarget apr (r.2.2.decoding i) (r.2.2.deref r.2.1) then
    (r.1 + 1, .slot i, r.2.2.setStatus i (workingStatus i))
  else r

theorem findJob_eq_foldl (hasJob : BitVec 64) (found : ℤ) (decJob : JobRef) (q : Queue) :
    findJob apr hasJob found decJob q =
      (slots hasJob).foldl (compareSlot apr) (found, decJob, q) := by
  induction hasJob, found, decJob, q using findJob.induct apr with
  | case1 found decJob q =>
      rw [findJob, dif_pos rfl, slots_zero]
      rfl
  | case2 hasJob found decJob q hne i hsame ih =>
      rw [findJob, dif_neg hne, slots_eq_cons hne, List.foldl_cons]
      dsimp only
      rw [if_pos hsame, ih, compareSlot, if_pos hsame]
  | case3 hasJob found decJob q hne i hsame ih =>
      rw [findJob, dif_neg hne, slots_eq_cons hne, List.foldl_cons]
      dsimp only
      rw [if_neg hsame, ih, compareSlot, if_neg hsame]

end Loop

section Target
variable {apr : Apr}

theorem sameTarget_congr {a a' : DecodingJob} (h : a.toJobData = a'.toJobData)
    (b : DecodingJob) : sameTarget apr a b = sameTarget apr a' b := by
  rw [sameTarget, sameTarget, h]

variable (hequiv : Equivalence (fun a b => apr.strnatcmp a b = 0))

include hequiv

theorem sameTarget_refl (a : DecodingJob) : sameTarget apr a a = true := by
  rw [sameTarget, Bool.and_eq_true, beq_iff_eq, beq_iff_eq]
  exact ⟨hequiv.refl _, hequiv.refl _⟩

theorem sameTarget_eq_of_same {b c : DecodingJob} (h : sameTarget apr b c = true)
    (a : DecodingJob) : sameTarget apr a b = sameTarget apr a c := by
  rw [sameTarget, Bool.and_eq_true, beq_iff_eq, beq_iff_eq] at h
  rw [Bool.eq_iff_iff, sameTarget, sameTarget, Bool.and_eq_true, Bool.and_eq_true, beq_iff_eq,
    beq_iff_eq, beq_iff_eq, beq_iff_eq]
  constructor
  · rintro ⟨hsource, htype⟩
    exact ⟨hequiv.trans hsource h.1, hequiv.trans htype h.2⟩
  · rintro ⟨hsource, htype⟩
    exact ⟨hequiv.trans hsource (hequiv.symm h.1), hequiv.trans htype (hequiv.symm h.2)⟩

end Target

def Queue.setStatuses (q : Queue) (l : List Slot) : Queue :=
  l.foldl (fun q i => q.setStatus i (workingStatus i)) q

theorem setStatuses_spec (q : Queue) (l : List Slot) :
    ∃ decoding, q.setStatuses l = { q with decoding := decoding } ∧
      (∀ i, (decoding i).SameButStatus (q.decoding i)) ∧
      ∀ i ∉ l, decoding i = q.decoding i := by
  induction l generalizing q with
  | nil => exact ⟨q.decoding, rfl, fun i => .refl _, fun _ _ => rfl⟩
  | cons i l ih =>
      obtain ⟨decoding, heq, hsame, hother⟩ := ih (q.setStatus i (workingStatus i))
      refine ⟨decoding, heq, fun j => (hsame j).trans (setStatus_sameButStatus q i _ j), ?_⟩
      intro j hj
      rw [List.mem_cons, not_or] at hj
      rw [hother j hj.2]
      exact Function.update_of_ne hj.1 _ _

def Queue.matchingIn (apr : Apr) (q : Queue) (job : DecodingJob) (l : List Slot) : List Slot :=
  l.filter (fun i => sameTarget apr (q.decoding i) job)

/-- The slots of the list that match the job are counted, the last one becomes the job, and the
status is written into each. -/
theorem foldl_compareSlot {apr : Apr}
    (hequiv : Equivalence (fun a b => apr.strnatcmp a b = 0)) (l : List Slot) (found : ℤ)
    {decJob : JobRef} {q : Queue} {job : DecodingJob}
    (hjob : sameTarget apr (q.deref decJob) job = true) :
    l.foldl (compareSlot apr) (found, decJob, q) =
      (found + (q.matchingIn apr job l).length,
        ((q.matchingIn apr job l).getLast?.map .slot).getD decJob,
        q.setStatuses (q.matchingIn apr job l)) := by
  induction l generalizing found decJob q with
  | nil => simp [Queue.matchingIn, Queue.setStatuses]
  | cons i l ih =>
      have hcompare : sameTarget apr (q.decoding i) (q.deref decJob) =
          sameTarget apr (q.decoding i) job := sameTarget_eq_of_same hequiv hjob _
      rw [List.foldl_cons, compareSlot, hcompare]
      by_cases hsame : sameTarget apr (q.decoding i) job = true
      · have hdata : ∀ j, sameTarget apr ((q.setStatus i (workingStatus i)).decoding j) job =
            sameTarget apr (q.decoding j) job :=
          fun j => sameTarget_congr (setStatus_sameButStatus q i _ j).data job
        have hrest : (q.setStatus i (workingStatus i)).matchingIn apr job l =
            q.matchingIn apr job l := List.filter_congr (fun j _ => hdata j)
        have hcons : q.matchingIn apr job (i :: l) = i :: q.matchingIn apr job l :=
          List.filter_cons_of_pos hsame
        have hfound : sameTarget apr ((q.setStatus i (workingStatus i)).deref (.slot i)) job :=
          (hdata i).trans hsame
        rw [if_pos hsame, ih (found + 1) hfound, hrest, hcons, List.getLast?_cons,
          List.length_cons]
        refine Prod.ext ?_ (Prod.ext ?_ rfl)
        · push_cast
          ring
        · cases (q.matchingIn apr job l).getLast? <;> rfl
      · have hcons : q.matchingIn apr job (i :: l) = q.matchingIn apr job l :=
          List.filter_cons_of_neg hsame
        rw [if_neg hsame, ih found hjob, hcons]

section Report
variable {ι : Type} {apr : Apr} {d : DecodingQueue} {decJob : JobRef}

def Queue.matching (apr : Apr) (q : Queue) (job : DecodingJob) : Finset Slot :=
  Finset.univ.filter (fun i => Has q.used i ∧ sameTarget apr (q.decoding i) job = true)

/-- What the results of a lookup say about the queue before it. -/
structure Reports (apr : Apr) (d : DecodingQueue) (decJob : JobRef) (found : ℤ) (decJob' : JobRef)
    (d' : DecodingQueue) : Prop where
  number : found = (d.queue.matching apr (d.queue.deref decJob)).card
  unchanged : found = 0 → decJob' = decJob ∧ d' = d
  largest : ∀ i ∈ d.queue.matching apr (d.queue.deref decJob),
    (∀ j ∈ d.queue.matching apr (d.queue.deref decJob), j ≤ i) → decJob' = .slot i
  ends : d'.queue.head = d.queue.head ∧ d'.queue.tail = d.queue.tail
  masks : d'.queue.waiting = d.queue.waiting ∧ d'.queue.working = d.queue.working
  fields : ∀ i, (d'.queue.decoding i).SameButStatus (d.queue.decoding i)
  others : ∀ i ∉ d.queue.matching apr (d.queue.deref decJob),
    d'.queue.decoding i = d.queue.decoding i

/-- The lookup returns, has compared the occupied slots one by one in increasing order, and reports
those that match. -/
def ExactLookup (apr : Apr) (d : DecodingQueue) (decJob : JobRef) : Prop :=
  ∃ found decJob' d', doesDecodingJobExsits apr d (some decJob) = .ok (found, some decJob', d') ∧
    (found, decJob', d'.queue) =
      (slots d.queue.used).foldl (compareSlot apr) (0, decJob, d.queue) ∧
    Reports apr d decJob found decJob' d'

theorem mem_matching {q : Queue} {job : DecodingJob} {i : Slot} :
    i ∈ q.matching apr job ↔ i ∈ q.matchingIn apr job (slots q.used) := by
  rw [Queue.matching, Queue.matchingIn, Finset.mem_filter, List.mem_filter, mem_slots,
    and_iff_right (Finset.mem_univ i)]

theorem card_matching (q : Queue) (job : DecodingJob) :
    (q.matching apr job).card = (q.matchingIn apr job (slots q.used)).length := by
  have hnodup : (q.matchingIn apr job (slots q.used)).Nodup :=
    ((slots_sorted q.used).filter _).imp (fun hlt => hlt.ne)
  rw [← List.toFinset_card_of_nodup hnodup]
  refine congrArg Finset.card (Finset.ext fun i => ?_)
  rw [mem_matching, List.mem_toFinset]

theorem getLast?_matchingIn {q : Queue} {job : DecodingJob} {i : Slot}
    (hi : i ∈ q.matching apr job) (hmax : ∀ j ∈ q.matching apr job, j ≤ i) :
    (q.matchingIn apr job (slots q.used)).getLast? = some i := by
  have hmem := mem_matching.mp hi
  have hne := List.ne_nil_of_mem hmem
  have hsorted : (q.matchingIn apr job (slots q.used)).Pairwise (· ≤ ·) :=
    ((slots_sorted q.used).filter _).imp (fun hlt => hlt.le)
  rw [List.getLast?_eq_some_getLast hne]
  refine congrArg some (le_antisymm ?_ (hsorted.rel_getLast hmem))
  exact hmax _ (mem_matching.mpr (List.getLast_mem hne))

theorem lookup_eq (hequiv : Equivalence (fun a b => apr.strnatcmp a b = 0))
    (hfree : d.mutexHeld = false) (hdisjoint : d.queue.waiting &&& d.queue.working = 0#64)
    {m : List Slot}
    (hm : d.queue.matchingIn apr (d.queue.deref decJob) (slots d.queue.used) = m) :
    doesDecodingJobExsits apr d (some decJob) =
      .ok (m.length, some ((m.getLast?.map .slot).getD decJob),
        { mutexHeld := false
          errorMessages := if 1 < m.length then (errorMessagesAdd d.errorMessages
            duplicateError).2 else d.errorMessages
          queue := d.queue.setStatuses m }) := by
  have hfind := findJob_eq_foldl apr d.queue.used 0 decJob d.queue
  rw [foldl_compareSlot hequiv (slots d.queue.used) 0 (sameTarget_refl hequiv _), hm,
    zero_add] at hfind
  rw [doesDecodingJobExsits, lock_of_free hfree, ok_bind]
  dsimp only
  rw [if_neg (not_not.mpr hdisjoint), hfind]
  dsimp only
  by_cases hmany : 1 < m.length
  · rw [if_pos hmany, if_pos (by exact_mod_cast hmany)]
    rfl
  · rw [if_neg hmany, if_neg (by exact_mod_cast hmany)]
    rfl

theorem lookup_exact (hequiv : Equivalence (fun a b => apr.strnatcmp a b = 0))
    (hfree : d.mutexHeld = false) (hdisjoint : d.queue.waiting &&& d.queue.working = 0#64)
    (decJob : JobRef) : ExactLookup apr d decJob := by
  obtain ⟨decoding, hstatuses, hfields, hothers⟩ := setStatuses_spec d.queue
    (d.queue.matchingIn apr (d.queue.deref decJob) (slots d.queue.used))
  refine ⟨_, _, _, lookup_eq hequiv hfree hdisjoint rfl, ?_, ?_⟩
  · rw [foldl_compareSlot hequiv (slots d.queue.used) 0 (sameTarget_refl hequiv _), zero_add]
  · rw [hstatuses]
    refine ⟨?_, fun hzero => ?_, fun i hi hmax => ?_, ⟨rfl, rfl⟩, ⟨rfl, rfl⟩, hfields, ?_⟩
    · rw [card_matching]
    · have hnil := List.length_eq_zero_iff.mp (Int.ofNat_eq_zero.mp hzero)
      rw [hnil] at hstatuses ⊢
      refine ⟨rfl, ?_⟩
      rw [if_neg (by simp), ← hstatuses, ← hfree]
      rfl
    · rw [getLast?_matchingIn hi hmax]
      rfl
    · exact fun i hi => hothers i (mt mem_matching.mpr hi)

end Report

end ModMp
