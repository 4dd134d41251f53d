import ModMp.QueueRuns

/-!
# The clients of the decoding queue

A client looks its job up and, when it is not found, adds it; the two calls lock the queue
separately. Between them the client is kept in `pending`. Workers take jobs and release their slots
meanwhile. The target of a job is its source and its output file type.
-/

namespace ModMp
open CLib Runs SlotMask SlotFifo

def JobData.target (a : JobData) : CString × CString :=
  (.ofBytes a.sourceId.toList, .ofBytes a.outputFileType.toList)

theorem findJob_le (apr : Apr) (hasJob : BitVec 64) (found : ℤ) (decJob : JobRef) (q : Queue) :
    found ≤ (findJob apr hasJob found decJob q).1 := by
  induction hasJob, found, decJob, q using findJob.induct apr with
  | case1 found decJob q => rw [findJob, dif_pos rfl]
  | case2 hasJob found decJob q hne i hsame ih =>
      rw [findJob, dif_neg hne]
      dsimp only
      rw [if_pos hsame]
      exact (Int.le_add_one le_rfl).trans ih
  | case3 hasJob found decJob q hne i hsame ih =>
      rw [findJob, dif_neg hne]
      dsimp only
      rwa [if_neg hsame]

/-- A slot of the queue whose job has the target of `job`, as the lookup compares them. -/
def Queue.HasTarget (apr : Apr) (q : Queue) (job : DecodingJob) : Prop :=
  ∃ i, Has q.used i ∧ sameTarget apr (q.decoding i) job = true

theorem findJob_eq_iff (apr : Apr) (hasJob : BitVec 64) (found : ℤ) (decJob : JobRef) (q : Queue) :
    (findJob apr hasJob found decJob q).1 = found ↔
      ∀ i, Has hasJob i → ¬ sameTarget apr (q.decoding i) (q.deref decJob) = true := by
  induction hasJob, found, decJob, q using findJob.induct apr with
  | case1 found decJob q =>
      rw [findJob, dif_pos rfl]
      exact iff_of_true rfl (fun i hi => absurd hi (has_zero i))
  | case2 hasJob found decJob q hne i hsame ih =>
      have hle := findJob_le apr (hasJob &&& ~~~flag i) (found + 1) (.slot i)
        (q.setStatus i (workingStatus i))
      rw [findJob, dif_neg hne]
      dsimp only
      rw [if_pos hsame]
      exact iff_of_false (Int.ne_of_gt hle) (fun h => h i (has_first hne) hsame)
  | case3 hasJob found decJob q hne i hsame ih =>
      rw [findJob, dif_neg hne]
      dsimp only
      rw [if_neg hsame, ih]
      constructor
      · intro h j hj
        by_cases hji : j = i
        · rw [hji]
          exact hsame
        · exact h j ((has_erase _ _ _).mpr ⟨hj, hji⟩)
      · intro h j hj
        exact h j ((has_erase _ _ _).mp hj).1

theorem lookup_eq_zero_iff {apr : Apr} {d : DecodingQueue} {job : DecodingJob}
    {r : ℤ × Option JobRef × DecodingQueue} (hfree : d.mutexHeld = false)
    (h : doesDecodingJobExsits apr d (some (.own job)) = .ok r) :
    r.1 = 0 ↔ ¬ d.queue.HasTarget apr job := by
  have hfound : r.1 = (findJob apr d.queue.used 0 (.own job) d.queue).1 := by
    rw [doesDecodingJobExsits, lock_of_free hfree, ok_bind] at h
    dsimp only at h
    split_ifs at h <;> cases h <;> rfl
  rw [hfound, findJob_eq_iff, Queue.HasTarget]
  push Not
  rfl

/-- The queue with its clients, and the job of each client that is between its two calls. -/
structure ClientSystem (ι : Type) where
  queue : QueueSystem ι
  pending : ι → Option DecodingJob

inductive ClientEvent
  | lookedUp (job : DecodingJob)
  | added
  | worked (e : Event 64 JobData)

def IsWork : Event 64 JobData → Prop
  | .handed _ _ | .nothing | .released _ => True
  | _ => False

variable {ι : Type} [DecidableEq ι]

inductive ClientStep (apr : Apr) : ClientSystem ι → ι × ClientEvent → ClientSystem ι → Prop
  | lookedUp (s : ClientSystem ι) (p : ι) (job : DecodingJob) (found : ℤ) (decJob : Option JobRef)
      (d : DecodingQueue) (hidle : s.pending p = none)
      (h : doesDecodingJobExsits apr s.queue.free.shared (some (.own job)) =
        .ok (found, decJob, d)) :
      ClientStep apr s (p, .lookedUp job) ⟨{ s.queue with shared := d },
        Function.update s.pending p (if found = 0 then some job else none)⟩
  | added (s : ClientSystem ι) (p : ι) (job : DecodingJob) (status : ℤ) (d : DecodingQueue)
      (hjob : s.pending p = some job)
      (h : addDecodingJobQueue job s.queue.free.shared = .ok (status, d)) :
      ClientStep apr s (p, .added) ⟨{ s.queue with shared := d },
        Function.update s.pending p none⟩
  | worked (s : ClientSystem ι) (p : ι) (e : Event 64 JobData) (queue : QueueSystem ι)
      (hwork : IsWork e) (h : FreedStep apr s.queue (p, e) queue) :
      ClientStep apr s (p, .worked e) ⟨queue, s.pending⟩

def ClientSystem.create (ι : Type) (errorMessages : ErrorMessages)
    (decoding : Slot → DecodingJob) : ClientSystem ι where
  queue := .create ι errorMessages decoding
  pending _ := none

section Steps
variable {apr : Apr} {s : ClientSystem ι} {f : Fifo 64 JobData}

theorem exists_lookup_step (h : Follows s.queue f) {p : ι} {job : DecodingJob}
    (hidle : s.pending p = none) (hmissing : ¬ s.queue.shared.queue.HasTarget apr job) :
    ∃ s', ClientStep apr s (p, .lookedUp job) s' ∧ Follows s'.queue f ∧
      s'.pending = Function.update s.pending p (some job) := by
  obtain ⟨found, decJob, d, hlook, -, hrep⟩ :=
    lookup_returns apr (d := s.queue.free.shared) rfl h.represents (some (.own job))
  have hfound : found = 0 := (lookup_eq_zero_iff rfl hlook).mpr hmissing
  refine ⟨_, .lookedUp s p job found decJob d hidle hlook, ⟨hrep, h.held, h.holder⟩, ?_⟩
  rw [if_pos hfound]

theorem exists_added_step (apr : Apr) (h : Follows s.queue f) {p : ι} {job : DecodingJob}
    (hjob : s.pending p = some job) (hroom : ∃ i, ¬ f.Taken i) :
    ∃ i, ∃ hi : ¬ f.Taken i, ∃ s', ClientStep apr s (p, .added) s' ∧
      Follows s'.queue (f.add i job.toJobData hi) ∧
      s'.pending = Function.update s.pending p none := by
  obtain ⟨i, hi, q', hadd, hrep, -⟩ :=
    add_of_not_full (d := s.queue.free.shared) rfl h.represents (not_forall.mpr hroom) job
  exact ⟨i, hi, _, .added s p job 0 _ hjob hadd, ⟨hrep, h.held, h.holder⟩, rfl⟩

omit [DecidableEq ι] in
theorem exists_free_after_add {i : Slot} (hi : ¬ f.Taken i) (a : JobData) {i₀ j₀ : Slot}
    (hslots : i₀ ≠ j₀) (hi₀ : ¬ f.Taken i₀) (hj₀ : ¬ f.Taken j₀) :
    ∃ k, ¬ (f.add i a hi).Taken k := by
  by_cases heq : i₀ = i
  · refine ⟨j₀, fun htaken => ?_⟩
    rcases (f.taken_add hi j₀).mp htaken with htaken | hj
    · exact hj₀ htaken
    · exact hslots (heq.trans hj.symm)
  · refine ⟨i₀, fun htaken => ?_⟩
    rcases (f.taken_add hi i₀).mp htaken with htaken | hi
    · exact hi₀ htaken
    · exact heq hi

end Steps

def sourceJob (source : UInt8) : DecodingJob :=
  { blankJob 0 with sourceId := (CString.ofBytes [source]).strncpy 256 }

def blankClients : ClientSystem Bool :=
  .create Bool ⟨0, fun _ => fullError.record⟩ (fun _ => blankJob 0)

theorem blankClients_follows :
    Follows blankClients.queue (Fifo.empty fun _ => (blankJob 0).toJobData) :=
  Follows.start ⟨0, fun _ => fullError.record⟩ (fun _ => blankJob 0)

theorem empty_not_taken (content : Slot → JobData) (i : Slot) : ¬ (Fifo.empty content).Taken i := by
  simp [Fifo.Taken, Fifo.empty]

theorem not_hasTarget_of_empty (apr : Apr) {q : Queue} {content : Slot → JobData}
    (h : Represents q (Fifo.empty content)) (job : DecodingJob) : ¬ q.HasTarget apr job := by
  rintro ⟨i, hi, -⟩
  exact empty_not_taken content i ((h.used i).mp hi)

end ModMp
