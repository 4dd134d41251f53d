import ModMp.QueueRuns

/-!
# The chain of the waiting slots

The waiting slots are linked by their `next` fields from `head` to `tail`, and the last one should
have -1 there. A new job gets -1 first, and then its slot is linked behind the old tail. After the
queue has drained the old tail may be the slot that the job goes to, and then the slot is linked
behind itself. Every other step keeps the chain.
-/

namespace ModMp
open CLib Runs SlotMask SlotFifo

namespace Queue

/-- Following `next` from `head` visits the slots of the list, which are the waiting ones, each
once, and it stops at the tail. -/
structure ChainOf (q : Queue) (l : List Slot) : Prop where
  start : ∀ i ∈ l.head?, q.head = (i : ℕ)
  visits : Threaded (fun i => (q.decoding i).next) l
  once : l.Nodup
  waiting : ∀ i, i ∈ l ↔ Has q.waiting i
  stop : ∀ i ∈ l.getLast?, q.tail = (i : ℕ) ∧ (q.decoding i).next = -1

def Chained (q : Queue) : Prop := q.waiting ≠ 0#64 → ∃ l, q.ChainOf l

def TailFirstFree (q : Queue) : Prop :=
  ∃ h : ~~~q.used ≠ 0#64, q.tail = (first (~~~q.used) h : ℕ)

end Queue

/-- A job is added whose slot is the tail. -/
def LinksItself {ι : Type} (s : QueueSystem ι) (a : ι × Event 64 JobData) : Prop :=
  match a.2 with
  | .accepted _ _ => s.shared.queue.TailFirstFree
  | _ => False

namespace Represents

variable {q q' : Queue} {f f' : Fifo 64 JobData}

theorem chained_iff (h : Represents q f) :
    q.Chained ↔ ∀ i ∈ f.waiting.getLast?, (q.decoding i).next = -1 := by
  constructor
  · intro hchained i hi
    have hmem : i ∈ f.waiting := List.mem_of_getLast? hi
    have hwaiting : q.waiting ≠ 0#64 := by
      rw [Ne, h.waiting_eq_zero]
      exact List.ne_nil_of_mem hmem
    obtain ⟨l, hl⟩ := hchained hwaiting
    have hne : l ≠ [] := List.ne_nil_of_mem ((hl.waiting i).mpr ((h.waiting i).mpr hmem))
    obtain ⟨t, ht⟩ := Option.isSome_iff_exists.mp (List.getLast?_isSome.mpr hne)
    obtain ⟨htail, hnext⟩ := hl.stop t ht
    have heq : i = t := Fin.ext (by exact_mod_cast (h.tail i hi).symm.trans htail)
    rwa [heq]
  · intro hlast _
    exact ⟨f.waiting, h.head, h.next, f.nodup, fun i => (h.waiting i).symm,
      fun i hi => ⟨h.tail i hi, hlast i hi⟩⟩

theorem chained_of_next (h : Represents q f) (h' : Represents q' f')
    (hlast : ∀ i ∈ f'.waiting.getLast?, i ∈ f.waiting.getLast?)
    (hnext : ∀ i, (q'.decoding i).next = (q.decoding i).next) (hchained : q.Chained) :
    q'.Chained := by
  refine h'.chained_iff.mpr fun i hi => ?_
  rw [hnext]
  exact h.chained_iff.mp hchained i (hlast i hi)

/-- The -1 of the new slot stays unless the slot is linked behind itself. -/
theorem chained_link_iff (h : Represents q f) {i : Slot} (hi : ¬ f.Taken i) {job : DecodingJob}
    (hlink : (q.place i job).link i = .ok q') : q'.Chained ↔ q.tail ≠ (i : ℕ) := by
  obtain ⟨q'', hlink', hrep, -⟩ := h.add hi job
  cases hlink.symm.trans hlink'
  obtain ⟨decoding, hspec, -, hother, hself⟩ := link_spec (q.place i job) h.tail_range i
  cases hlink.symm.trans hspec
  have hlast : (f.add i job.toJobData hi).waiting.getLast? = some i := List.getLast?_concat
  have hplace : ((q.place i job).decoding i).next = -1 := by
    change (Function.update q.decoding i { job with index := (i : ℕ), next := -1 } i).next = -1
    rw [Function.update_self]
  rw [hrep.chained_iff, hlast]
  constructor
  · intro hnext htail
    have hlinked := (hself i htail).symm.trans (hnext i rfl)
    omega
  · rintro htail j ⟨⟩
    exact (hother i htail).trans hplace

end Represents

/-- An accepted job is put into the first free slot, which is then linked. -/
theorem add_accepted {d d' : DecodingQueue} {job : DecodingJob} (hfree : d.mutexHeld = false)
    (hadd : addDecodingJobQueue job d = .ok (0, d')) :
    ∃ h : ~~~d.queue.used ≠ 0#64, (d.queue.place (first (~~~d.queue.used) h) job).link
      (first (~~~d.queue.used) h) = .ok d'.queue := by
  rw [addDecodingJobQueue, lock_of_free hfree, ok_bind] at hadd
  dsimp only at hadd
  split_ifs at hadd with hzero
  · cases hadd
  · refine ⟨hzero, ?_⟩
    obtain ⟨q, hq, hd⟩ := exists_of_bind_eq_ok hadd
    cases hd
    exact hq

section Steps
variable {ι : Type} [DecidableEq ι] {apr : Apr} {s s' : QueueSystem ι} {f : Fifo 64 JobData}

/-- On a queue with a proper chain, a step keeps the chain unless it links a slot behind itself. -/
theorem step_chained_iff (h : Follows s f) (hchained : s.shared.queue.Chained)
    {a : ι × Event 64 JobData} (hs : FreedStep apr s a s') :
    s'.shared.queue.Chained ↔ ¬ LinksItself s a := by
  have hrep : Represents s.free.shared.queue f := h.represents
  cases hs with
  | accepted p job d hadd =>
      obtain ⟨hne, hlink⟩ := add_accepted rfl hadd
      have hslot : ¬ f.Taken (first (~~~s.free.shared.queue.used) hne) := by
        rw [← hrep.used, ← has_not]
        exact has_first hne
      refine (hrep.chained_link_iff hslot hlink).trans (not_congr ?_)
      exact ⟨fun htail => ⟨hne, htail⟩, fun hfirst => hfirst.2⟩
  | refused p job status d hadd hstatus =>
      refine iff_of_true ?_ not_false
      by_cases hfull : ∀ i, f.Taken i
      · cases hadd.symm.trans (add_of_full rfl hrep hfull job)
        exact hchained
      · obtain ⟨i, hi, q', hadd', -, -⟩ := add_of_not_full rfl hrep hfull job
        cases hadd.symm.trans hadd'
        exact absurd rfl hstatus
  | handed p i d hget =>
      refine iff_of_true ?_ not_false
      cases hw : f.waiting with
      | nil =>
          rw [get_of_empty rfl hrep hw] at hget
          cases hget
      | cons j rest =>
          rw [get_of_cons rfl hrep hw] at hget
          cases hget
          refine hrep.chained_of_next (hrep.take hw) (fun j hj => ?_) (fun _ => rfl) hchained
          rw [hw]
          exact List.mem_getLast?_cons hj
  | nothing p d hget =>
      refine iff_of_true ?_ not_false
      cases hw : f.waiting with
      | nil =>
          rw [get_of_empty rfl hrep hw] at hget
          cases hget
          exact hchained
      | cons j rest =>
          rw [get_of_cons rfl hrep hw] at hget
          cases hget
  | lookedUp p decJob r hlook =>
      refine iff_of_true ?_ not_false
      obtain ⟨found, decJob', d', decoding, hlook', -, hqueue, hfields⟩ :=
        lookup_spec apr rfl hrep decJob
      cases hlook.symm.trans hlook'
      change d'.queue.Chained
      rw [hqueue]
      exact hrep.chained_of_next (hrep.congr hfields) (fun _ hj => hj)
        (fun j => (hfields j).next) hchained
  | released p i d hi hrelease =>
      refine iff_of_true ?_ not_false
      cases hrelease.symm.trans (releaseSlot_of_free (d := s.free.shared) rfl i)
      exact hrep.chained_of_next (hrep.release i) (fun _ hj => hj) (fun _ => rfl) hchained

omit [DecidableEq ι] in
theorem create_chained (errorMessages : ErrorMessages) (decoding : Slot → DecodingJob) :
    (QueueSystem.create ι errorMessages decoding).shared.queue.Chained :=
  fun hwaiting => absurd rfl hwaiting

/-- The runs in which the waiting slots are a proper chain in every state are those in which no job
is added to the slot of the tail. -/
theorem waiting_chained_iff (apr : Apr) (errorMessages : ErrorMessages)
    (decoding : Slot → DecodingJob) (l : List (ι × Event 64 JobData)) (s : QueueSystem ι) :
    Run (fun s a s' => FreedStep apr s a s' ∧ s'.shared.queue.Chained)
        (.create ι errorMessages decoding) l s ↔
      Run (fun s a s' => FreedStep apr s a s' ∧ ¬ LinksItself s a)
        (.create ι errorMessages decoding) l s := by
  apply Run.iff_of_invariant (I := fun s => (∃ f, Follows s f) ∧ s.shared.queue.Chained)
  · exact ⟨⟨_, Follows.start errorMessages decoding⟩, create_chained errorMessages decoding⟩
  · rintro s a s' ⟨⟨f, hf⟩, -⟩ ⟨hs, hchained⟩
    obtain ⟨f', -, hf'⟩ := hf.step hs
    exact ⟨⟨f', hf'⟩, hchained⟩
  · rintro s a s' ⟨⟨f, hf⟩, hchained⟩
    exact and_congr_right (fun hs => step_chained_iff hf hchained hs)

end Steps

/-- A job is added and taken, its slot is released, and another job goes to the same slot. -/
theorem drained_tail_linked : ¬ ∀ l s, Run (FreedStep plainApr) blankSystem l s →
    s.shared.queue.Chained := by
  intro h
  have hrun : ∃ l s, Run (FreedStep plainApr) blankSystem l s ∧
      Has s.shared.queue.waiting 0 ∧ s.shared.queue.tail = 0 ∧
      (s.shared.queue.decoding 0).next = 0 :=
    ⟨_, _, (((Run.single (.accepted _ () (blankJob 1) _ rfl)).snoc
      (.handed _ () 0 _ rfl)).snoc
      (.released _ () 0 _ (Finset.mem_insert_self _ _) rfl)).snoc
      (.accepted _ () (blankJob 2) _ rfl), by decide, rfl, rfl⟩
  obtain ⟨l, s, hrun, hwaiting, htail, hnext⟩ := hrun
  obtain ⟨slots, hslots⟩ := h l s hrun (fun hzero => (eq_zero_iff _).mp hzero 0 hwaiting)
  have hne : slots ≠ [] := List.ne_nil_of_mem ((hslots.waiting 0).mpr hwaiting)
  obtain ⟨t, ht⟩ := Option.isSome_iff_exists.mp (List.getLast?_isSome.mpr hne)
  obtain ⟨hstop, hlast⟩ := hslots.stop t ht
  have hval : (t : ℕ) = 0 := by exact_mod_cast hstop.symm.trans htail
  have hzero : t = 0 := Fin.ext hval
  rw [hzero, hnext] at hlast
  cases hlast

end ModMp
