import ModMp.QueueClients

/-!
# The targets in the decoding queue

As long as no job is looked up while another client is between its two calls for the same target,
the occupied slots and the pending jobs all have different targets. Where two clients look the same
target up before either adds its job, both can add it.
-/

namespace ModMp
open CLib Runs SlotMask SlotFifo

variable {ι : Type} [DecidableEq ι]

/-- A job that the queue does not have is looked up only while no other client is between its two
calls for the same target. -/
def LooksUpAlone (apr : Apr) (s : ClientSystem ι) (a : ι × ClientEvent) : Prop :=
  match a.2 with
  | .lookedUp job => s.queue.shared.queue.HasTarget apr job ∨
      ∀ p job', p ≠ a.1 → s.pending p = some job' → job'.target ≠ job.target
  | _ => True

/-- The occupied slots and the pending jobs have different targets. -/
structure Apart (s : ClientSystem ι) (f : Fifo 64 JobData) : Prop where
  follows : Follows s.queue f
  slots : ∀ i j, f.Taken i → f.Taken j → (f.content i).target = (f.content j).target → i = j
  slot_pending : ∀ i p job, f.Taken i → s.pending p = some job →
    (f.content i).target ≠ job.target
  pendings : ∀ p p' job job', s.pending p = some job → s.pending p' = some job' →
    job.target = job'.target → p = p'

namespace Apart

variable {apr : Apr} {s s' : ClientSystem ι} {f f' : Fifo 64 JobData}

omit [DecidableEq ι] in
theorem start (errorMessages : ErrorMessages) (decoding : Slot → DecodingJob) :
    Apart (ClientSystem.create ι errorMessages decoding)
      (Fifo.empty (fun i => (decoding i).toJobData)) where
  follows := Follows.start errorMessages decoding
  slots i _ h := by simp [Fifo.Taken, Fifo.empty] at h
  slot_pending _ _ _ _ h := by cases h
  pendings _ _ _ _ h := by cases h

theorem lookedUp (hrefl : ∀ a, apr.strnatcmp a a = 0) (h : Apart s f) {p : ι} {job : DecodingJob}
    (halone : LooksUpAlone apr s (p, .lookedUp job)) {found : ℤ} {decJob : Option JobRef}
    {d : DecodingQueue} (hidle : s.pending p = none)
    (hlook : doesDecodingJobExsits apr s.queue.free.shared (some (.own job)) =
      .ok (found, decJob, d)) (hfollows : Follows { s.queue with shared := d } f) :
    Apart ⟨{ s.queue with shared := d },
      Function.update s.pending p (if found = 0 then some job else none)⟩ f := by
  have hiff := lookup_eq_zero_iff rfl hlook
  by_cases hfound : found = 0
  · rw [if_pos hfound]
    have hnew : ¬ s.queue.shared.queue.HasTarget apr job := hiff.mp hfound
    have hother := halone.resolve_left hnew
    refine ⟨hfollows, h.slots, ?_, ?_⟩
    · intro i p' job' hi hjob'
      change Function.update s.pending p (some job) p' = some job' at hjob'
      by_cases hp : p' = p
      · rw [hp, Function.update_self, Option.some.injEq] at hjob'
        rw [← hjob']
        intro htarget
        apply hnew
        refine ⟨i, (h.follows.represents.used i).mpr hi, ?_⟩
        have hdata := h.follows.represents.data i hi
        rw [← hdata] at htarget
        have hsource := congrArg Prod.fst htarget
        have htype := congrArg Prod.snd htarget
        dsimp only [JobData.target] at hsource htype
        rw [sameTarget, hsource, htype, hrefl, hrefl]
        rfl
      · rw [Function.update_of_ne hp] at hjob'
        exact h.slot_pending i p' job' hi hjob'
    · intro p₁ p₂ job₁ job₂ hjob₁ hjob₂ htarget
      change Function.update s.pending p (some job) p₁ = some job₁ at hjob₁
      change Function.update s.pending p (some job) p₂ = some job₂ at hjob₂
      by_cases hp₁ : p₁ = p <;> by_cases hp₂ : p₂ = p
      · rw [hp₁, hp₂]
      · rw [hp₁, Function.update_self, Option.some.injEq] at hjob₁
        rw [Function.update_of_ne hp₂] at hjob₂
        rw [← hjob₁] at htarget
        exact absurd htarget.symm (hother p₂ job₂ hp₂ hjob₂)
      · rw [Function.update_of_ne hp₁] at hjob₁
        rw [hp₂, Function.update_self, Option.some.injEq] at hjob₂
        rw [← hjob₂] at htarget
        exact absurd htarget (hother p₁ job₁ hp₁ hjob₁)
      · rw [Function.update_of_ne hp₁] at hjob₁
        rw [Function.update_of_ne hp₂] at hjob₂
        exact h.pendings p₁ p₂ job₁ job₂ hjob₁ hjob₂ htarget
  · rw [if_neg hfound, ← hidle, Function.update_eq_self]
    exact ⟨hfollows, h.slots, h.slot_pending, h.pendings⟩

theorem added (h : Apart s f) {p : ι} {job : DecodingJob} {status : ℤ} {d : DecodingQueue}
    (hjob : s.pending p = some job)
    (hadd : addDecodingJobQueue job s.queue.free.shared = .ok (status, d)) :
    ∃ f', Apart ⟨{ s.queue with shared := d }, Function.update s.pending p none⟩ f' := by
  have hpending : ∀ p' job', Function.update s.pending p none p' = some job' →
      p' ≠ p ∧ s.pending p' = some job' := by
    intro p' job' hjob'
    by_cases hp : p' = p
    · rw [hp, Function.update_self] at hjob'
      cases hjob'
    · rw [Function.update_of_ne hp] at hjob'
      exact ⟨hp, hjob'⟩
  have hpendings : ∀ p₁ p₂ job₁ job₂, Function.update s.pending p none p₁ = some job₁ →
      Function.update s.pending p none p₂ = some job₂ → job₁.target = job₂.target → p₁ = p₂ :=
    fun p₁ p₂ job₁ job₂ h₁ h₂ =>
      h.pendings p₁ p₂ job₁ job₂ (hpending p₁ job₁ h₁).2 (hpending p₂ job₂ h₂).2
  have hrep : Represents s.queue.free.shared.queue f := h.follows.represents
  by_cases hfull : ∀ i, f.Taken i
  · rw [add_of_full rfl hrep hfull] at hadd
    cases hadd
    exact ⟨f, ⟨h.follows.represents, h.follows.held, h.follows.holder⟩, h.slots,
      fun i p' job' hi hjob' => h.slot_pending i p' job' hi (hpending p' job' hjob').2, hpendings⟩
  · obtain ⟨i, hi, q', hadd', hq', -⟩ := add_of_not_full rfl hrep hfull job
    cases hadd.symm.trans hadd'
    have hcontent : ∀ j, (f.add i job.toJobData hi).Taken j →
        j = i ∧ (f.add i job.toJobData hi).content j = job.toJobData ∨
        f.Taken j ∧ (f.add i job.toJobData hi).content j = f.content j := by
      intro j hj
      by_cases hji : j = i
      · exact .inl ⟨hji, hji ▸ f.content_add_self hi⟩
      · exact .inr ⟨((f.taken_add hi j).mp hj).resolve_right hji, f.content_add_of_ne hi hji⟩
    refine ⟨f.add i job.toJobData hi, ⟨hq', h.follows.held, h.follows.holder⟩, ?_, ?_, hpendings⟩
    · intro j k hj hk htarget
      rcases hcontent j hj with ⟨hji, hcj⟩ | ⟨hj, hcj⟩ <;>
        rcases hcontent k hk with ⟨hki, hck⟩ | ⟨hk, hck⟩ <;> rw [hcj, hck] at htarget
      · rw [hji, hki]
      · exact absurd htarget.symm (h.slot_pending k p job hk hjob)
      · exact absurd htarget (h.slot_pending j p job hj hjob)
      · exact h.slots j k hj hk htarget
    · intro j p' job' hj hjob'
      obtain ⟨hp, hjob'⟩ := hpending p' job' hjob'
      rcases hcontent j hj with ⟨hji, hcj⟩ | ⟨hj, hcj⟩ <;> rw [hcj]
      · intro htarget
        exact hp (h.pendings p' p job' job hjob' hjob htarget.symm)
      · exact h.slot_pending j p' job' hj hjob'

theorem worked (h : Apart s f) {p : ι} {e : Event 64 JobData} {queue : QueueSystem ι}
    (hwork : IsWork e) (hstep : FreedStep apr s.queue (p, e) queue) :
    ∃ f', Apart ⟨queue, s.pending⟩ f' := by
  obtain ⟨f', hf, hfollows⟩ := h.follows.step hstep
  have hsub : (∀ i, f'.Taken i → f.Taken i) ∧ f'.content = f.content := by
    cases hf with
    | accepted i a hi => exact absurd hwork id
    | refused hfull => exact absurd hwork id
    | handed i rest hw => exact ⟨fun j => (f.taken_get hw j).mp, rfl⟩
    | nothing hw => exact ⟨fun _ => id, rfl⟩
    | lookedUp => exact absurd hwork id
    | released i hi => exact ⟨fun j hj => ((f.taken_release hi j).mp hj).1, rfl⟩
  obtain ⟨htaken, hcontent⟩ := hsub
  refine ⟨f', hfollows, ?_, ?_, h.pendings⟩
  · intro i j hi hj
    rw [hcontent]
    exact h.slots i j (htaken i hi) (htaken j hj)
  · intro i p' job hi
    rw [hcontent]
    exact h.slot_pending i p' job (htaken i hi)

theorem step (hrefl : ∀ a, apr.strnatcmp a a = 0) (h : Apart s f) {a : ι × ClientEvent}
    (halone : LooksUpAlone apr s a) (hs : ClientStep apr s a s') : ∃ f', Apart s' f' := by
  cases hs with
  | lookedUp p job found decJob d hidle hlook =>
      have hfollows : Follows { s.queue with shared := d } f := by
        obtain ⟨found', decJob', d', hlook', -, hrep⟩ :=
          lookup_returns apr (d := s.queue.free.shared) rfl h.follows.represents (some (.own job))
        cases hlook.symm.trans hlook'
        exact ⟨hrep, h.follows.held, h.follows.holder⟩
      exact ⟨f, h.lookedUp hrefl halone hidle hlook hfollows⟩
  | added p job status d hjob hadd => exact h.added hjob hadd
  | worked p e queue hwork hstep => exact h.worked hwork hstep

end Apart

/-- In a run in which no missing job is looked up while another client is about to add one for the
same target, the occupied slots always have different targets. -/
theorem targets_distinct {apr : Apr} (hrefl : ∀ a, apr.strnatcmp a a = 0)
    {errorMessages : ErrorMessages} {decoding : Slot → DecodingJob} {l : List (ι × ClientEvent)}
    {s : ClientSystem ι}
    (h : Run (fun s a s' => LooksUpAlone apr s a ∧ ClientStep apr s a s')
      (.create ι errorMessages decoding) l s) (i j : Slot)
    (hi : Has s.queue.shared.queue.used i) (hj : Has s.queue.shared.queue.used j)
    (htarget : (s.queue.shared.queue.decoding i).target =
      (s.queue.shared.queue.decoding j).target) : i = j := by
  have hinv : ∃ f, Apart s f := by
    apply h.invariant (I := fun s => ∃ f, Apart s f)
    · exact ⟨_, Apart.start errorMessages decoding⟩
    · intro s a s' hapart hstep
      obtain ⟨f, hf⟩ := hapart
      exact hf.step hrefl hstep.1 hstep.2
  obtain ⟨f, hf⟩ := hinv
  have hrep := hf.follows.represents
  have hi' := (hrep.used i).mp hi
  have hj' := (hrep.used j).mp hj
  rw [hrep.data i hi', hrep.data j hj'] at htarget
  exact hf.slots i j hi' hj' htarget

/-- Two clients look up and add jobs of different sources. -/
theorem targets_distinct_two_sources : ∃ l s, l.length = 4 ∧
    Run (ClientStep plainApr) blankClients l s ∧
    ∀ i j, Has s.queue.shared.queue.used i → Has s.queue.shared.queue.used j →
      (s.queue.shared.queue.decoding i).target = (s.queue.shared.queue.decoding j).target →
      i = j := by
  have hrefl : ∀ a, plainApr.strnatcmp a a = 0 := fun a => if_pos rfl
  have hne : (sourceJob 1).target ≠ (sourceJob 2).target := by decide
  have hstart := blankClients_follows
  obtain ⟨s₁, hlook₁, hs₁, hpending₁⟩ := exists_lookup_step (p := true) hstart rfl
    (not_hasTarget_of_empty plainApr hstart.represents (sourceJob 1))
  have hidle : s₁.pending false = none := by
    rw [hpending₁]
    rfl
  obtain ⟨s₂, hlook₂, hs₂, hpending₂⟩ := exists_lookup_step hs₁ hidle
    (not_hasTarget_of_empty plainApr hs₁.represents (sourceJob 2))
  have hjob₂ : s₂.pending true = some (sourceJob 1) := by
    rw [hpending₂, hpending₁]
    rfl
  obtain ⟨i, hi, s₃, hadd₁, hs₃, hpending₃⟩ :=
    exists_added_step plainApr hs₂ hjob₂ ⟨0, empty_not_taken _ 0⟩
  have hjob₃ : s₃.pending false = some (sourceJob 2) := by
    rw [hpending₃, hpending₂]
    rfl
  obtain ⟨j, hj, s₄, hadd₂, hs₄, -⟩ := exists_added_step plainApr hs₃ hjob₃
    (exists_free_after_add hi _ (by decide) (empty_not_taken _ 0) (empty_not_taken _ 1))
  have hfirst : LooksUpAlone plainApr blankClients (true, .lookedUp (sourceJob 1)) :=
    Or.inr (fun _ _ _ hjob' => nomatch hjob')
  have halone : LooksUpAlone plainApr s₁ (false, .lookedUp (sourceJob 2)) := by
    right
    intro p job' hp hjob'
    rw [Bool.eq_true_of_not_eq_false hp, hpending₁, Function.update_self,
      Option.some.injEq] at hjob'
    rw [← hjob']
    exact hne
  have hadds : ∀ s (p : Bool), LooksUpAlone plainApr s (p, .added) := fun _ _ => True.intro
  have hrun : Run (fun s a s' => LooksUpAlone plainApr s a ∧ ClientStep plainApr s a s')
      blankClients _ s₄ :=
    (((Run.single ⟨hfirst, hlook₁⟩).snoc ⟨halone, hlook₂⟩).snoc ⟨hadds _ _, hadd₁⟩).snoc
      ⟨hadds _ _, hadd₂⟩
  exact ⟨_, s₄, rfl, hrun.mono (fun _ _ _ ha => ha.2),
    fun i j hi hj htarget => targets_distinct hrefl hrun i j hi hj htarget⟩

/-- A job that is looked up while another client is about to add one for the same target can be
queued twice, if two slots are free. -/
theorem exists_duplicate_of_late_lookup {apr : Apr} {s : ClientSystem ι} {f : Fifo 64 JobData}
    (h : Follows s.queue f) {p p' : ι}
    {job job' : DecodingJob} (hne : p' ≠ p) (hidle : s.pending p = none)
    (hjob' : s.pending p' = some job') (htarget : job'.target = job.target)
    (hmissing : ¬ s.queue.shared.queue.HasTarget apr job) {i₀ j₀ : Slot} (hslots : i₀ ≠ j₀)
    (hi₀ : ¬ f.Taken i₀) (hj₀ : ¬ f.Taken j₀) :
    ∃ l s', Run (ClientStep apr) s l s' ∧ ∃ i j, i ≠ j ∧ Has s'.queue.shared.queue.used i ∧
      Has s'.queue.shared.queue.used j ∧ (s'.queue.shared.queue.decoding i).target =
        (s'.queue.shared.queue.decoding j).target := by
  obtain ⟨s₁, hlook, hs₁, hpending₁⟩ := exists_lookup_step h hidle hmissing
  have hp' : s₁.pending p' = some job' := by
    rw [hpending₁, Function.update_of_ne hne, hjob']
  obtain ⟨i, hi, s₂, hadd', hs₂, hpending₂⟩ := exists_added_step apr hs₁ hp' ⟨i₀, hi₀⟩
  have hp : s₂.pending p = some job := by
    rw [hpending₂, Function.update_of_ne hne.symm, hpending₁, Function.update_self]
  have hroom := exists_free_after_add hi job'.toJobData hslots hi₀ hj₀
  obtain ⟨j, hj, s₃, hadd, hs₃, -⟩ := exists_added_step apr hs₂ hp hroom
  have htaken : (f.add i job'.toJobData hi).Taken i := (f.taken_add hi i).mpr (.inr rfl)
  have hij : i ≠ j := fun heq => hj (heq ▸ htaken)
  have hti := ((f.add i job'.toJobData hi).taken_add (a := job.toJobData) hj i).mpr (.inl htaken)
  have htj := ((f.add i job'.toJobData hi).taken_add (a := job.toJobData) hj j).mpr (.inr rfl)
  refine ⟨_, s₃, ((Run.single hlook).snoc hadd').snoc hadd, i, j, hij,
    (hs₃.represents.used i).mpr hti, (hs₃.represents.used j).mpr htj, ?_⟩
  rw [hs₃.represents.data i hti, hs₃.represents.data j htj, Fifo.content_add_self,
    Fifo.content_add_of_ne _ _ hij, Fifo.content_add_self]
  exact htarget

/-- Two clients look the same job up before either adds it, and both add it. -/
theorem blankClients_duplicate : ∃ l s, Run (ClientStep plainApr) blankClients l s ∧
    ∃ i j, i ≠ j ∧ Has s.queue.shared.queue.used i ∧ Has s.queue.shared.queue.used j ∧
      (s.queue.shared.queue.decoding i).target = (s.queue.shared.queue.decoding j).target := by
  have hstart := blankClients_follows
  obtain ⟨s, hlook, hs, hpending⟩ := exists_lookup_step (p := true) hstart rfl
    (not_hasTarget_of_empty plainApr hstart.represents (sourceJob 1))
  have hidle : s.pending false = none := by
    rw [hpending]
    rfl
  have hjob : s.pending true = some (sourceJob 1) := by
    rw [hpending]
    rfl
  obtain ⟨l, s', hrun, hdup⟩ := exists_duplicate_of_late_lookup hs (by decide) hidle hjob rfl
    (not_hasTarget_of_empty plainApr hs.represents (sourceJob 1)) (by decide)
    (empty_not_taken _ 0) (empty_not_taken _ 1)
  exact ⟨_, s', (Run.single hlook).trans hrun, hdup⟩

end ModMp
