import ModMp.DecodingQueue
import ModMp.SlotFifo

/-!
# The decoding queue is an ordered queue in slots

`Represents q f` reads the words, the array and the ends of a queue as an order of waiting slots.
The `next` entry of the last waiting slot is left free: once the queue has drained the old tail
stays set, and the next job may be linked behind a working slot, a released one, or itself. Each
operation, on a queue that represents an order and has its lock free, makes one step of the order.
-/

namespace ModMp
open CLib SlotMask SlotFifo

theorem slotOf_slot (i : Slot) : slotOf (i : ℕ) = .ok i := by
  have hi := i.isLt
  rw [slotOf, dif_pos ⟨by omega, by omega⟩]
  rfl

/-- The old tail's `next` is the only entry that linking a slot writes. -/
theorem link_spec (p : Queue) (htail : p.tail < 0 ∨ ∃ t : Slot, p.tail = (t : ℕ)) (i : Slot) :
    ∃ decoding, p.link i = .ok { p with tail := (i : ℕ), decoding := decoding } ∧
      (∀ j, (decoding j).toJobData = (p.decoding j).toJobData ∧
        (decoding j).index = (p.decoding j).index) ∧
      (∀ j : Slot, p.tail ≠ (j : ℕ) → (decoding j).next = (p.decoding j).next) ∧
      ∀ j : Slot, p.tail = (j : ℕ) → (decoding j).next = (i : ℕ) := by
  rcases htail with hneg | ⟨t, ht⟩
  · refine ⟨p.decoding, ?_, fun _ => ⟨rfl, rfl⟩, fun _ _ => rfl, fun j hj => by omega⟩
    rw [Queue.link, if_neg (by omega)]
    rfl
  · refine ⟨Function.update p.decoding t { p.decoding t with next := (i : ℕ) }, ?_, fun j => ?_,
      fun j hj => ?_, fun j hj => ?_⟩
    · rw [Queue.link, if_pos (by omega), ht, slotOf_slot]
      rfl
    · by_cases hjt : j = t
      · rw [hjt, Function.update_self]
        exact ⟨rfl, rfl⟩
      · rw [Function.update_of_ne hjt]
        exact ⟨rfl, rfl⟩
    · have hjt : j ≠ t := fun heq => hj (heq ▸ ht)
      rw [Function.update_of_ne hjt]
    · have hjt : j = t := by
        rw [ht] at hj
        exact Fin.ext (by exact_mod_cast hj.symm)
      rw [hjt, Function.update_self]

/-- Two jobs that differ in their status at most. -/
structure DecodingJob.SameButStatus (a b : DecodingJob) : Prop where
  data : a.toJobData = b.toJobData
  index : a.index = b.index
  next : a.next = b.next

namespace DecodingJob.SameButStatus

theorem refl (a : DecodingJob) : a.SameButStatus a := ⟨rfl, rfl, rfl⟩

theorem trans {a b c : DecodingJob} (h : a.SameButStatus b) (h' : b.SameButStatus c) :
    a.SameButStatus c := ⟨h.data.trans h'.data, h.index.trans h'.index, h.next.trans h'.next⟩

end DecodingJob.SameButStatus

theorem setStatus_sameButStatus (q : Queue) (i : Slot) (text : CString) (j : Slot) :
    ((q.setStatus i text).decoding j).SameButStatus (q.decoding j) := by
  unfold Queue.setStatus Queue.setJob
  by_cases hj : j = i
  · rw [hj]
    dsimp only
    rw [Function.update_self]
    exact ⟨rfl, rfl, rfl⟩
  · dsimp only
    rw [Function.update_of_ne hj]
    exact .refl _

/-- The waiting and working slots of a queue, and its jobs, are those of an order. -/
structure Represents (q : Queue) (f : Fifo 64 JobData) : Prop where
  waiting : ∀ i, Has q.waiting i ↔ i ∈ f.waiting
  working : ∀ i, Has q.working i ↔ i ∈ f.working
  data : ∀ i, f.Taken i → (q.decoding i).toJobData = f.content i
  index : ∀ i, f.Taken i → (q.decoding i).index = (i : ℕ)
  next : Threaded (fun i => (q.decoding i).next) f.waiting
  head : ∀ i ∈ f.waiting.head?, q.head = (i : ℕ)
  tail : ∀ i ∈ f.waiting.getLast?, q.tail = (i : ℕ)
  tail_range : q.tail < 0 ∨ ∃ t : Slot, q.tail = (t : ℕ)

namespace Represents

variable {q : Queue} {f : Fifo 64 JobData}

theorem start (decoding : Slot → DecodingJob) :
    Represents ⟨0, -1, 0#64, 0#64, decoding⟩ (Fifo.empty (fun i => (decoding i).toJobData)) where
  waiting i := iff_of_false (has_zero i) List.not_mem_nil
  working i := iff_of_false (has_zero i) (Finset.notMem_empty i)
  data _ _ := rfl
  index i h := by simp [Fifo.Taken, Fifo.empty] at h
  next := List.isChain_nil
  head i h := by cases h
  tail i h := by cases h
  tail_range := .inl (show (-1 : ℤ) < 0 by decide)

theorem used (h : Represents q f) (i : Slot) : Has q.used i ↔ f.Taken i := by
  rw [Queue.used, has_or, h.waiting, h.working, Fifo.Taken]

theorem waiting_eq_zero (h : Represents q f) : q.waiting = 0#64 ↔ f.waiting = [] := by
  rw [eq_zero_iff, List.eq_nil_iff_forall_not_mem]
  exact forall_congr' (fun i => not_congr (h.waiting i))

theorem disjoint (h : Represents q f) : q.waiting &&& q.working = 0#64 := by
  rw [eq_zero_iff]
  intro i hi
  rw [has_and, h.waiting, h.working] at hi
  exact f.disjoint i hi.1 hi.2

theorem congr (h : Represents q f) {decoding : Slot → DecodingJob}
    (hsame : ∀ i, (decoding i).SameButStatus (q.decoding i)) :
    Represents { q with decoding := decoding } f where
  waiting := h.waiting
  working := h.working
  data i hi := (hsame i).data.trans (h.data i hi)
  index i hi := (hsame i).index.trans (h.index i hi)
  next := h.next.congr (fun i _ => (hsame i).next)
  head := h.head
  tail := h.tail
  tail_range := h.tail_range

theorem take (h : Represents q f) {i : Slot} {rest : List Slot} (hw : f.waiting = i :: rest) :
    Represents (q.take i) (f.get hw) where
  waiting j := by
    rw [Queue.take, has_erase, h.waiting, hw, List.mem_cons]
    have hnodup := (List.nodup_cons.mp (hw ▸ f.nodup)).1
    constructor
    · rintro ⟨hj, hne⟩
      exact hj.resolve_left hne
    · intro hj
      exact ⟨.inr hj, fun heq => hnodup (heq ▸ hj)⟩
  working j := by
    rw [Queue.take, has_insert, h.working, Fifo.get, Finset.mem_insert, or_comm]
  data j hj := h.data j ((f.taken_get hw j).mp hj)
  index j hj := h.index j ((f.taken_get hw j).mp hj)
  next := by
    have hnext := h.next
    rw [hw] at hnext
    exact hnext.tail
  head j hj := by
    have hnext := h.next
    rw [hw] at hnext
    exact (List.isChain_cons.mp hnext).1 j hj
  tail j hj := by
    apply h.tail j
    rw [hw]
    exact List.mem_getLast?_cons hj
  tail_range := h.tail_range

theorem add (h : Represents q f) {i : Slot} (hi : ¬ f.Taken i) (job : DecodingJob) :
    ∃ q', (q.place i job).link i = .ok q' ∧ Represents q' (f.add i job.toJobData hi) ∧
      q'.tail = (i : ℕ) := by
  obtain ⟨decoding, hlink, hdata, hother, hlast⟩ := link_spec (q.place i job) h.tail_range i
  have hself : (q.place i job).decoding i = { job with index := (i : ℕ), next := -1 } :=
    Function.update_self ..
  have hne : ∀ j, j ≠ i → (q.place i job).decoding j = q.decoding j :=
    fun j hj => Function.update_of_ne hj ..
  refine ⟨_, hlink, ?_, rfl⟩
  refine ⟨fun j => ?_, h.working, fun j hj => ?_, fun j hj => ?_, ?_, fun j hj => ?_,
    fun j hj => ?_, .inr ⟨i, rfl⟩⟩
  · change Has (q.waiting ||| flag i) j ↔ j ∈ f.waiting ++ [i]
    rw [has_insert, h.waiting, List.mem_append, List.mem_singleton]
  · apply (hdata j).1.trans
    by_cases hji : j = i
    · rw [hji, hself, f.content_add_self hi]
    · rw [hne j hji, f.content_add_of_ne hi hji]
      exact h.data j (((f.taken_add hi j).mp hj).resolve_right hji)
  · apply (hdata j).2.trans
    by_cases hji : j = i
    · rw [hji, hself]
    · rw [hne j hji]
      exact h.index j (((f.taken_add hi j).mp hj).resolve_right hji)
  · apply h.next.append f.nodup _ (fun j hj => hlast j (h.tail j hj))
    intro j hj hjlast
    have hji : j ≠ i := by
      rintro rfl
      exact hi (.inl hj)
    obtain ⟨t, ht⟩ := Option.isSome_iff_exists.mp
      (List.getLast?_isSome.mpr (List.ne_nil_of_mem hj))
    have htail : q.tail ≠ (j : ℕ) := by
      rw [h.tail t ht]
      intro heq
      exact hjlast ((Fin.ext (by exact_mod_cast heq) : t = j) ▸ ht)
    apply (hother j htail).trans
    rw [hne j hji]
  · change (if q.waiting = 0#64 then ((i : ℕ) : ℤ) else q.head) = (j : ℕ)
    change j ∈ (f.waiting ++ [i]).head? at hj
    by_cases hempty : f.waiting = []
    · rw [if_pos (h.waiting_eq_zero.mpr hempty)]
      rw [hempty] at hj
      cases hj
      rfl
    · rw [if_neg (mt h.waiting_eq_zero.mp hempty)]
      rw [List.head?_append_of_ne_nil _ hempty] at hj
      exact h.head j hj
  · change j ∈ (f.waiting ++ [i]).getLast? at hj
    rw [List.getLast?_concat] at hj
    cases hj
    rfl

theorem release (h : Represents q f) (i : Slot) :
    Represents { q with working := q.working &&& ~~~flag i } (f.release i) where
  waiting := h.waiting
  working j := by
    rw [has_erase, h.working, Fifo.release, Finset.mem_erase, and_comm]
  data j hj := h.data j (hj.imp_right Finset.mem_of_mem_erase)
  index j hj := h.index j (hj.imp_right Finset.mem_of_mem_erase)
  next := h.next
  head := h.head
  tail := h.tail
  tail_range := h.tail_range

end Represents

theorem lock_of_free {d : DecodingQueue} (hfree : d.mutexHeld = false) :
    d.lock = .ok { d with mutexHeld := true } := by
  rw [DecodingQueue.lock, hfree]
  rfl

section Calls
variable {d : DecodingQueue} {f : Fifo 64 JobData}

theorem get_of_empty (hfree : d.mutexHeld = false) (h : Represents d.queue f)
    (hw : f.waiting = []) : getDecodingJobQueue d = .ok (none, d.unlock) := by
  rw [getDecodingJobQueue, lock_of_free hfree, ok_bind, if_neg]
  · rfl
  · exact not_not.mpr (h.waiting_eq_zero.mpr hw)

theorem get_of_cons (hfree : d.mutexHeld = false) (h : Represents d.queue f) {i : Slot}
    {rest : List Slot} (hw : f.waiting = i :: rest) :
    getDecodingJobQueue d = .ok (some i, { d with queue := d.queue.take i }.unlock) := by
  have hhead : d.queue.head = (i : ℕ) := h.head i (by rw [hw]; rfl)
  have hrange : ¬ (d.queue.head < 0 ∨ 63 < d.queue.head) := by
    have hi := i.isLt
    omega
  have hwaiting : d.queue.waiting ≠ 0#64 := by
    rw [Ne, h.waiting_eq_zero, hw]
    exact List.cons_ne_nil i rest
  rw [getDecodingJobQueue, lock_of_free hfree, ok_bind, if_pos hwaiting]
  dsimp only
  rw [if_neg hrange, hhead, slotOf_slot]
  rfl

theorem add_of_full (hfree : d.mutexHeld = false) (h : Represents d.queue f)
    (hfull : ∀ i, f.Taken i) (job : DecodingJob) :
    addDecodingJobQueue job d = .ok (-1, { d with mutexHeld := true }.addError fullError) := by
  have hzero : ~~~d.queue.used = 0#64 := by
    rw [eq_zero_iff]
    intro i
    rw [has_not, h.used, not_not]
    exact hfull i
  rw [addDecodingJobQueue, lock_of_free hfree, ok_bind]
  exact dif_pos hzero

theorem add_of_not_full (hfree : d.mutexHeld = false) (h : Represents d.queue f)
    (hfull : ¬ ∀ i, f.Taken i) (job : DecodingJob) :
    ∃ i, ∃ hi : ¬ f.Taken i, ∃ q',
      addDecodingJobQueue job d = .ok (0, { d with queue := q' }.unlock) ∧
      Represents q' (f.add i job.toJobData hi) ∧ q'.tail = (i : ℕ) := by
  have hne : ~~~d.queue.used ≠ 0#64 := by
    intro hzero
    apply hfull
    intro i
    have hi := (eq_zero_iff _).mp hzero i
    rwa [has_not, h.used, not_not] at hi
  have hi : ¬ f.Taken (first (~~~d.queue.used) hne) := by
    rw [← h.used, ← has_not]
    exact has_first hne
  obtain ⟨q', hlink, hrep, htail⟩ := h.add hi job
  refine ⟨_, hi, q', ?_, hrep, htail⟩
  rw [addDecodingJobQueue, lock_of_free hfree, ok_bind]
  dsimp only
  rw [dif_neg hne, hlink]
  rfl

theorem findJob_spec (apr : Apr) (hasJob : BitVec 64) (found : ℤ) (decJob : JobRef) (q : Queue) :
    ∃ decoding, (findJob apr hasJob found decJob q).2.2 = { q with decoding := decoding } ∧
      ∀ i, (decoding i).SameButStatus (q.decoding i) := by
  induction hasJob, found, decJob, q using findJob.induct apr with
  | case1 found decJob q =>
      refine ⟨q.decoding, ?_, fun i => .refl (q.decoding i)⟩
      rw [findJob, dif_pos rfl]
  | case2 hasJob found decJob q hne i hsame ih =>
      obtain ⟨decoding, heq, hfields⟩ := ih
      refine ⟨decoding, ?_, fun j => (hfields j).trans (setStatus_sameButStatus q i _ j)⟩
      rw [findJob, dif_neg hne]
      dsimp only
      rw [if_pos hsame, heq]
      rfl
  | case3 hasJob found decJob q hne i hsame ih =>
      obtain ⟨decoding, heq, hfields⟩ := ih
      refine ⟨decoding, ?_, hfields⟩
      rw [findJob, dif_neg hne]
      dsimp only
      rw [if_neg hsame, heq]

/-- A lookup returns, frees the lock and writes status texts only. -/
theorem lookup_spec (apr : Apr) (hfree : d.mutexHeld = false) (h : Represents d.queue f)
    (decJob : Option JobRef) :
    ∃ found decJob' d' decoding,
      doesDecodingJobExsits apr d decJob = .ok (found, decJob', d') ∧ d'.mutexHeld = false ∧
      d'.queue = { d.queue with decoding := decoding } ∧
      ∀ i, (decoding i).SameButStatus (d.queue.decoding i) := by
  cases decJob with
  | none => exact ⟨0, none, d, d.queue.decoding, rfl, hfree, rfl, fun _ => .refl _⟩
  | some decJob =>
      obtain ⟨decoding, heq, hfields⟩ := findJob_spec apr d.queue.used 0 decJob d.queue
      rw [doesDecodingJobExsits, lock_of_free hfree, ok_bind]
      dsimp only
      rw [if_neg (not_not.mpr h.disjoint)]
      refine ⟨_, _, _, decoding, rfl, rfl, ?_, hfields⟩
      split_ifs
      · exact heq
      · exact heq

theorem lookup_returns (apr : Apr) (hfree : d.mutexHeld = false) (h : Represents d.queue f)
    (decJob : Option JobRef) :
    ∃ found decJob' d', doesDecodingJobExsits apr d decJob = .ok (found, decJob', d') ∧
      d'.mutexHeld = false ∧ Represents d'.queue f := by
  obtain ⟨found, decJob', d', decoding, hlook, hlock, hqueue, hfields⟩ :=
    lookup_spec apr hfree h decJob
  refine ⟨found, decJob', d', hlook, hlock, ?_⟩
  rw [hqueue]
  exact h.congr hfields

theorem releaseSlot_of_free (hfree : d.mutexHeld = false) (i : Slot) :
    releaseSlot d i =
      .ok { d with queue := { d.queue with working := d.queue.working &&& ~~~flag i } }.unlock := by
  rw [releaseSlot, lock_of_free hfree, ok_bind]
  rfl

end Calls

end ModMp
