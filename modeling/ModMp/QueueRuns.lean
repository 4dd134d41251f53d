import ModMp.QueueRefinement

/-!
# Runs of the decoding queue

Any number of processes call the queue and release the slots they were handed; each call is one
step. A step from `s.free` finds the lock free, whoever held it. Every run of such steps follows a
run of an ordered queue in slots, so the jobs handed out are the first of those accepted, in their
order, and a job keeps its slot and its data until the slot is released.
-/

namespace ModMp
open CLib Runs SlotMask SlotFifo

/-- The shared queue, and the slots each process was handed and has not released. -/
structure QueueSystem (ι : Type) where
  shared : DecodingQueue
  held : ι → Finset Slot

variable {ι : Type} [DecidableEq ι]

def Queue.tailSlot (q : Queue) : Slot := Fin.ofNat 64 q.tail.toNat

theorem Queue.tailSlot_eq {q : Queue} {i : Slot} (h : q.tail = (i : ℕ)) : q.tailSlot = i := by
  rw [tailSlot, h, Int.toNat_natCast]
  exact Fin.ext (Nat.mod_eq_of_lt i.isLt)

/-- The steps of the processes. A job is accepted when its add returns 0; its slot is the new
tail. -/
inductive QueueStep (apr : Apr) : QueueSystem ι → ι × Event 64 JobData → QueueSystem ι → Prop
  | accepted (s : QueueSystem ι) (p : ι) (job : DecodingJob) (d : DecodingQueue)
      (h : addDecodingJobQueue job s.shared = .ok (0, d)) :
      QueueStep apr s (p, .accepted d.queue.tailSlot job.toJobData) { s with shared := d }
  | refused (s : QueueSystem ι) (p : ι) (job : DecodingJob) (status : ℤ) (d : DecodingQueue)
      (h : addDecodingJobQueue job s.shared = .ok (status, d)) (hstatus : status ≠ 0) :
      QueueStep apr s (p, .refused) { s with shared := d }
  | handed (s : QueueSystem ι) (p : ι) (i : Slot) (d : DecodingQueue)
      (h : getDecodingJobQueue s.shared = .ok (some i, d)) :
      QueueStep apr s (p, .handed i (d.queue.decoding i).toJobData)
        ⟨d, Function.update s.held p (insert i (s.held p))⟩
  | nothing (s : QueueSystem ι) (p : ι) (d : DecodingQueue)
      (h : getDecodingJobQueue s.shared = .ok (none, d)) :
      QueueStep apr s (p, .nothing) { s with shared := d }
  | lookedUp (s : QueueSystem ι) (p : ι) (decJob : Option JobRef)
      (r : ℤ × Option JobRef × DecodingQueue)
      (h : doesDecodingJobExsits apr s.shared decJob = .ok r) :
      QueueStep apr s (p, .lookedUp) { s with shared := r.2.2 }
  | released (s : QueueSystem ι) (p : ι) (i : Slot) (d : DecodingQueue) (hi : i ∈ s.held p)
      (h : releaseSlot s.shared i = .ok d) :
      QueueStep apr s (p, .released i) ⟨d, Function.update s.held p ((s.held p).erase i)⟩

def QueueSystem.free (s : QueueSystem ι) : QueueSystem ι := { s with shared := s.shared.unlock }

/-- A step that finds the lock free. -/
def FreedStep (apr : Apr) (s : QueueSystem ι) (a : ι × Event 64 JobData) (s' : QueueSystem ι) :
    Prop := QueueStep apr s.free a s'

def QueueSystem.create (ι : Type) (errorMessages : ErrorMessages)
    (decoding : Slot → DecodingJob) : QueueSystem ι where
  shared := createDecodingQueue errorMessages decoding
  held _ := ∅

/-- The queue represents an order, and each slot handed out is held by one process. -/
structure Follows (s : QueueSystem ι) (f : Fifo 64 JobData) : Prop where
  represents : Represents s.shared.queue f
  held : ∀ p i, i ∈ s.held p → i ∈ f.working
  holder : ∀ p p' i, i ∈ s.held p → i ∈ s.held p' → p = p'

namespace Follows

variable {apr : Apr} {s s' : QueueSystem ι} {f : Fifo 64 JobData}

omit [DecidableEq ι] in
theorem start (errorMessages : ErrorMessages) (decoding : Slot → DecodingJob) :
    Follows (QueueSystem.create ι errorMessages decoding)
      (Fifo.empty (fun i => (decoding i).toJobData)) where
  represents := Represents.start decoding
  held _ i hi := absurd hi (Finset.notMem_empty i)
  holder _ _ i hi := absurd hi (Finset.notMem_empty i)

theorem hand (h : Follows s f) (p : ι) {i : Slot} {rest : List Slot} (hw : f.waiting = i :: rest)
    {d : DecodingQueue} (hd : d.queue = s.shared.queue.take i) :
    Follows ⟨d, Function.update s.held p (insert i (s.held p))⟩ (f.get hw) where
  represents := by
    rw [hd]
    exact h.represents.take hw
  held p' j hj := by
    change j ∈ insert i f.working
    change j ∈ Function.update s.held p (insert i (s.held p)) p' at hj
    rw [Function.update_apply] at hj
    split_ifs at hj with hp
    · exact Finset.insert_subset_insert i (fun k hk => h.held p k hk) hj
    · exact Finset.mem_insert_of_mem (h.held p' j hj)
  holder p₁ p₂ j hj₁ hj₂ := by
    have hfresh : ∀ p', i ∉ s.held p' := by
      intro p' hi
      exact f.disjoint i (by rw [hw]; exact List.mem_cons_self) (h.held p' i hi)
    by_cases hji : j = i
    · subst hji
      have hp : ∀ p', j ∈ Function.update s.held p (insert j (s.held p)) p' → p' = p := by
        intro p' hj
        by_contra hne
        rw [Function.update_of_ne hne] at hj
        exact hfresh p' hj
      exact (hp p₁ hj₁).trans (hp p₂ hj₂).symm
    · have hold : ∀ p', j ∈ Function.update s.held p (insert i (s.held p)) p' → j ∈ s.held p' := by
        intro p' hj
        rw [Function.update_apply] at hj
        split_ifs at hj with hp
        · exact hp ▸ Finset.mem_of_mem_insert_of_ne hj hji
        · exact hj
      exact h.holder p₁ p₂ j (hold p₁ hj₁) (hold p₂ hj₂)

theorem release (h : Follows s f) {p : ι} {i : Slot} (hi : i ∈ s.held p) {d : DecodingQueue}
    (hd : d.queue = { s.shared.queue with working := s.shared.queue.working &&& ~~~flag i }) :
    Follows ⟨d, Function.update s.held p ((s.held p).erase i)⟩ (f.release i) where
  represents := by
    rw [hd]
    exact h.represents.release i
  held p' j hj := by
    change j ∈ f.working.erase i
    change j ∈ Function.update s.held p ((s.held p).erase i) p' at hj
    rw [Function.update_apply] at hj
    split_ifs at hj with hp
    · exact Finset.erase_subset_erase i (fun k hk => h.held p k hk) hj
    · have hji : j ≠ i := by
        rintro rfl
        exact hp (h.holder p' p j hj hi)
      exact Finset.mem_erase.mpr ⟨hji, h.held p' j hj⟩
  holder p₁ p₂ j hj₁ hj₂ := by
    have hold : ∀ p', j ∈ Function.update s.held p ((s.held p).erase i) p' → j ∈ s.held p' := by
      intro p' hj
      rw [Function.update_apply] at hj
      split_ifs at hj with hp
      · exact hp ▸ Finset.mem_of_mem_erase hj
      · exact hj
    exact h.holder p₁ p₂ j (hold p₁ hj₁) (hold p₂ hj₂)

theorem step (h : Follows s f) {p : ι} {e : Event 64 JobData} (hs : FreedStep apr s (p, e) s') :
    ∃ f', SlotFifo.Step f e f' ∧ Follows s' f' := by
  have hrep : Represents s.free.shared.queue f := h.represents
  cases hs with
  | accepted _ job d hadd =>
      by_cases hfull : ∀ i, f.Taken i
      · rw [add_of_full rfl hrep hfull] at hadd
        cases hadd
      · obtain ⟨j, hj, q', hadd', hq', htail⟩ := add_of_not_full rfl hrep hfull job
        cases hadd.symm.trans hadd'
        change ∃ f', Step f (.accepted q'.tailSlot job.toJobData) f' ∧ _
        rw [Queue.tailSlot_eq htail]
        exact ⟨_, .accepted f j job.toJobData hj, hq', h.held, h.holder⟩
  | refused _ job status d hadd hstatus =>
      by_cases hfull : ∀ i, f.Taken i
      · rw [add_of_full rfl hrep hfull] at hadd
        cases hadd
        exact ⟨f, .refused f hfull, hrep, h.held, h.holder⟩
      · obtain ⟨j, hj, q', hadd', -, -⟩ := add_of_not_full rfl hrep hfull job
        cases hadd.symm.trans hadd'
        exact absurd rfl hstatus
  | handed _ i d hget =>
      cases hw : f.waiting with
      | nil =>
          rw [get_of_empty rfl hrep hw] at hget
          cases hget
      | cons j rest =>
          rw [get_of_cons rfl hrep hw] at hget
          cases hget
          have hdata : ((s.shared.queue.take i).decoding i).toJobData = f.content i :=
            hrep.data i (.inl (by rw [hw]; exact List.mem_cons_self))
          change ∃ f', Step f (.handed i ((s.shared.queue.take i).decoding i).toJobData) f' ∧ _
          rw [hdata]
          exact ⟨_, .handed f i rest hw, h.hand p hw rfl⟩
  | nothing _ d hget =>
      cases hw : f.waiting with
      | nil =>
          rw [get_of_empty rfl hrep hw] at hget
          cases hget
          exact ⟨f, .nothing f hw, hrep, h.held, h.holder⟩
      | cons j rest =>
          rw [get_of_cons rfl hrep hw] at hget
          cases hget
  | lookedUp _ decJob r hlook =>
      obtain ⟨found, decJob', d', hlook', -, hrep'⟩ := lookup_returns apr rfl hrep decJob
      cases hlook.symm.trans hlook'
      exact ⟨f, .lookedUp f, hrep', h.held, h.holder⟩
  | released _ i d hi hrelease =>
      cases hrelease.symm.trans (releaseSlot_of_free (d := s.free.shared) rfl i)
      exact ⟨_, .released f i (h.held p i hi), h.release hi rfl⟩

theorem run {errorMessages : ErrorMessages} {decoding : Slot → DecodingJob}
    {l : List (ι × Event 64 JobData)}
    (h : Run (FreedStep apr) (.create ι errorMessages decoding) l s) :
    ∃ f, Explains (l.map Prod.snd) f ∧ Follows s f := by
  obtain ⟨f, hrun, hfollows⟩ := h.simulate Prod.snd (start errorMessages decoding)
    (fun _ _ _ _ hf hs => hf.step hs)
  exact ⟨f, Explains.run hrun, hfollows⟩

end Follows

section Reachable
variable {apr : Apr} {errorMessages : ErrorMessages} {decoding : Slot → DecodingJob}
  {l : List (ι × Event 64 JobData)} {s : QueueSystem ι}

/-- Every call on a reachable queue with its lock free returns. -/
theorem calls_return (h : Run (FreedStep apr) (.create ι errorMessages decoding) l s) :
    (∀ job, ∃ r, addDecodingJobQueue job s.shared.unlock = .ok r) ∧
      (∃ r, getDecodingJobQueue s.shared.unlock = .ok r) ∧
      ∀ decJob, ∃ r, doesDecodingJobExsits apr s.shared.unlock decJob = .ok r := by
  obtain ⟨f, -, hf⟩ := Follows.run h
  have hrep : Represents s.shared.unlock.queue f := hf.represents
  refine ⟨fun job => ?_, ?_, fun decJob => ?_⟩
  · by_cases hfull : ∀ i, f.Taken i
    · exact ⟨_, add_of_full rfl hrep hfull job⟩
    · obtain ⟨i, hi, q', hadd, -⟩ := add_of_not_full rfl hrep hfull job
      exact ⟨_, hadd⟩
  · cases hw : f.waiting with
    | nil => exact ⟨_, get_of_empty rfl hrep hw⟩
    | cons i rest => exact ⟨_, get_of_cons rfl hrep hw⟩
  · obtain ⟨found, decJob', d', hlook, -⟩ := lookup_returns apr rfl hrep decJob
    exact ⟨_, hlook⟩

/-- An add on a reachable queue with its lock free is accepted, into a slot that nothing occupies
and with its data, or the queue is full and stays as it is. -/
theorem add_accepted_or_refused (h : Run (FreedStep apr) (.create ι errorMessages decoding) l s)
    (p : ι) (job : DecodingJob) :
    ∃ status d, addDecodingJobQueue job s.shared.unlock = .ok (status, d) ∧
      (status = 0 ∧ (∃ i, FreedStep apr s (p, .accepted i job.toJobData) { s with shared := d } ∧
          occupant (l.map Prod.snd) i = none ∧ Has d.queue.waiting i ∧
          (d.queue.decoding i).toJobData = job.toJobData) ∨
        status ≠ 0 ∧ FreedStep apr s (p, .refused) { s with shared := d } ∧
          (∀ i, Has s.shared.queue.used i) ∧ d.queue = s.shared.queue) := by
  obtain ⟨f, hexplains, hf⟩ := Follows.run h
  have hrep : Represents s.shared.unlock.queue f := hf.represents
  by_cases hfull : ∀ i, f.Taken i
  · have hadd := add_of_full rfl hrep hfull job
    exact ⟨_, _, hadd, .inr ⟨by decide, .refused s.free p job _ _ hadd (by decide),
      fun i => (hrep.used i).mpr (hfull i), rfl⟩⟩
  · obtain ⟨i, hi, q', hadd, hq', htail⟩ := add_of_not_full rfl hrep hfull job
    have hstep : FreedStep apr s (p, .accepted q'.tailSlot job.toJobData)
        { s with shared := { s.shared.unlock with queue := q' }.unlock } :=
      .accepted s.free p job _ hadd
    rw [Queue.tailSlot_eq htail] at hstep
    have htaken : (f.add i job.toJobData hi).Taken i := (f.taken_add hi i).mpr (.inr rfl)
    refine ⟨0, _, hadd, .inl ⟨rfl, i, hstep, hexplains.free i hi, ?_, ?_⟩⟩
    · exact (hq'.waiting i).mpr (List.mem_append_right _ (List.mem_singleton_self i))
    · exact (hq'.data i htaken).trans (f.content_add_self hi)

/-- The queue hands out its jobs in the order it accepted them, each once; NULL means that all have
been handed out; an occupied slot keeps the data of its job; and every add either stores its job or
finds the queue full. -/
theorem queue_fifo (h : Run (FreedStep apr) (.create ι errorMessages decoding) l s) :
    handedItems (l.map Prod.snd) <+: acceptedItems (l.map Prod.snd) ∧
      (∃ r, getDecodingJobQueue s.shared.unlock = .ok r ∧
        (r.1 = none ↔ acceptedItems (l.map Prod.snd) = handedItems (l.map Prod.snd))) ∧
      s.shared.queue.waiting &&& s.shared.queue.working = 0#64 ∧
      (s.shared.queue.waiting ≠ 0#64 → 0 ≤ s.shared.queue.head ∧ s.shared.queue.head ≤ 63) ∧
      (∀ i a, occupant (l.map Prod.snd) i = some a →
        Has s.shared.queue.used i ∧ (s.shared.queue.decoding i).toJobData = a) ∧
      (∀ p i a s', FreedStep apr s (p, .accepted i a) s' →
        occupant (l.map Prod.snd) i = none) ∧
      ∀ p job, ∃ status d, addDecodingJobQueue job s.shared.unlock = .ok (status, d) ∧
        (status = 0 ∧ (∃ i, FreedStep apr s (p, .accepted i job.toJobData) { s with shared := d } ∧
            occupant (l.map Prod.snd) i = none ∧ Has d.queue.waiting i ∧
            (d.queue.decoding i).toJobData = job.toJobData) ∨
          status ≠ 0 ∧ FreedStep apr s (p, .refused) { s with shared := d } ∧
            (∀ i, Has s.shared.queue.used i) ∧ d.queue = s.shared.queue) := by
  obtain ⟨f, hexplains, hf⟩ := Follows.run h
  have hrep := hf.represents
  refine ⟨hexplains.handed_prefix, ?_, hrep.disjoint, fun hwaiting => ?_, fun i a ha => ?_,
    fun p i a s' hs => ?_, add_accepted_or_refused h⟩
  · rw [← hexplains.waiting_eq_nil_iff]
    cases hw : f.waiting with
    | nil => exact ⟨_, get_of_empty (d := s.shared.unlock) rfl hrep hw, by simp⟩
    | cons i rest => exact ⟨_, get_of_cons (d := s.shared.unlock) rfl hrep hw, by simp⟩
  · obtain ⟨i, rest, hw⟩ := List.exists_cons_of_ne_nil (mt hrep.waiting_eq_zero.mpr hwaiting)
    have hi := i.isLt
    have hhead := hrep.head i (by rw [hw]; rfl)
    omega
  · obtain ⟨htaken, hcontent⟩ := hexplains.taken_of_occupant ha
    exact ⟨(hrep.used i).mpr htaken, (hrep.data i htaken).trans hcontent⟩
  · obtain ⟨f', hstep, -⟩ := hf.step hs
    cases hstep with
    | accepted i a hi => exact hexplains.free i hi

end Reachable

def blankJob (progress : UInt32) : DecodingJob where
  songId := .replicate 256 0
  artistId := .replicate 256 0
  albumId := .replicate 256 0
  sourceId := .replicate 256 0
  inputFilePath := .replicate 1024 0
  inputFileType := .replicate 1024 0
  outputFileType := .replicate 256 0
  outputFilePath := .replicate 1024 0
  newSourceId := .replicate 256 0
  progress := progress
  index := 0
  status := .replicate 512 0
  next := 0

def plainApr : Apr where
  strnatcmp a b := if a = b then 0 else 1
  strerror _ := CString.ofAscii "Success"

def blankSystem : QueueSystem Unit :=
  .create Unit ⟨0, fun _ => fullError.record⟩ (fun _ => blankJob 0)

/-- Two jobs are added and one is taken. -/
theorem queue_fifo_two_jobs : ∃ l s, Run (FreedStep plainApr) blankSystem l s ∧
    acceptedItems (l.map Prod.snd) =
      [(0, (blankJob 1).toJobData), (1, (blankJob 2).toJobData)] ∧
    handedItems (l.map Prod.snd) = [(0, (blankJob 1).toJobData)] ∧
    handedItems (l.map Prod.snd) <+: acceptedItems (l.map Prod.snd) ∧
    Has s.shared.queue.used 1 ∧
    (s.shared.queue.decoding 1).toJobData = (blankJob 2).toJobData := by
  have hrun : ∃ l s, Run (FreedStep plainApr) blankSystem l s ∧
      acceptedItems (l.map Prod.snd) =
        [(0, (blankJob 1).toJobData), (1, (blankJob 2).toJobData)] ∧
      handedItems (l.map Prod.snd) = [(0, (blankJob 1).toJobData)] ∧
      occupant (l.map Prod.snd) 1 = some (blankJob 2).toJobData :=
    ⟨_, _, ((Run.single (.accepted _ () (blankJob 1) _ rfl)).snoc
      (.accepted _ () (blankJob 2) _ rfl)).snoc (.handed _ () 0 _ rfl), rfl, rfl, rfl⟩
  obtain ⟨l, s, h, haccepted, hhanded, hoccupant⟩ := hrun
  obtain ⟨hfirst, -, -, -, hkept, -⟩ := queue_fifo h
  exact ⟨l, s, h, haccepted, hhanded, hfirst, hkept 1 _ hoccupant⟩

end ModMp
