import ModMp.QueueRuns
import ModMp.SlotCount

/-!
# The size of the decoding queue

`popcount_4` counts the bits of a word by taking the lowest one away until none is left. On the two
words of a reachable queue it counts the jobs that wait and those that are worked on, and a job is
accepted as long as the two are fewer than the slots.
-/

namespace ModMp
open Runs SlotMask SlotFifo

theorem toNat_and_sub_one_lt {x : BitVec 64} (h : x ≠ 0#64) :
    (x &&& (x - 1#64)).toNat < x.toNat := by
  obtain ⟨i, hi, heq⟩ := has_and_sub_one h
  rw [heq]
  exact toNat_erase_lt hi

def popcountLoop (count : ℤ) (x : BitVec 64) : ℤ :=
  if h : x = 0#64 then count else popcountLoop (count + 1) (x &&& (x - 1#64))
termination_by x.toNat
decreasing_by exact toNat_and_sub_one_lt h

def popcount4 (x : BitVec 64) : ℤ := popcountLoop 0 x

theorem popcountLoop_eq (count : ℤ) (x : BitVec 64) :
    popcountLoop count x = count + (slots x).length := by
  induction count, x using popcountLoop.induct with
  | case1 count =>
      rw [popcountLoop, dif_pos rfl, slots_zero]
      exact (add_zero count).symm
  | case2 count x h ih =>
      obtain ⟨i, hi, heq⟩ := has_and_sub_one h
      have hlength := length_slots_erase hi
      rw [popcountLoop, dif_neg h, ih, heq, ← hlength]
      push_cast
      ring

theorem popcount4_eq (x : BitVec 64) : popcount4 x = (slots x).length := by
  rw [popcount4, popcountLoop_eq, zero_add]

namespace Represents

variable {q : Queue} {f : Fifo 64 JobData}

theorem popcount_waiting (h : Represents q f) : popcount4 q.waiting = f.waiting.length := by
  rw [popcount4_eq, length_slots_eq f.nodup h.waiting]

theorem popcount_working (h : Represents q f) : popcount4 q.working = f.working.card := by
  have hworking : ∀ i, Has q.working i ↔ i ∈ f.working.toList := by
    simpa only [Finset.mem_toList] using h.working
  rw [popcount4_eq, length_slots_eq f.working.nodup_toList hworking, Finset.length_toList]

theorem popcount_used (h : Represents q f) :
    popcount4 q.used = popcount4 q.waiting + popcount4 q.working := by
  have hnodup : (f.waiting ++ f.working.toList).Nodup := by
    refine List.nodup_append.mpr ⟨f.nodup, f.working.nodup_toList, fun i hi j hj hij => ?_⟩
    exact f.disjoint i hi (hij ▸ Finset.mem_toList.mp hj)
  have hused : ∀ i, Has q.used i ↔ i ∈ f.waiting ++ f.working.toList := by
    intro i
    rw [h.used, Fifo.Taken, List.mem_append, Finset.mem_toList]
  rw [h.popcount_waiting, h.popcount_working, popcount4_eq, length_slots_eq hnodup hused,
    List.length_append, Finset.length_toList, Nat.cast_add]

theorem popcount_used_eq_iff (h : Represents q f) : popcount4 q.used = 64 ↔ ∀ i, f.Taken i := by
  have hfull : popcount4 q.used = 64 ↔ slots q.used = List.finRange 64 := by
    rw [popcount4_eq, slots, ← List.length_filter_eq_length_iff.trans List.filter_eq_self.symm,
      List.length_finRange]
    norm_cast
  rw [hfull, slots, List.filter_eq_self]
  simp only [List.mem_finRange, decide_eq_true_eq, true_implies, h.used]

end Represents

/-- In every reachable queue `popcount_4` gives the jobs that were accepted and not yet handed out,
those handed out and not yet released, and whether there is room for one more. -/
theorem queue_sizes {ι : Type} [DecidableEq ι] {apr : Apr} {errorMessages : ErrorMessages}
    {decoding : Slot → DecodingJob} {l : List (ι × Event 64 JobData)} {s : QueueSystem ι}
    (h : Run (FreedStep apr) (.create ι errorMessages decoding) l s) :
    popcount4 s.shared.queue.waiting =
        (acceptedItems (l.map Prod.snd)).length - (handedItems (l.map Prod.snd)).length ∧
      popcount4 s.shared.queue.working =
        (handedItems (l.map Prod.snd)).length - (releasedSlots (l.map Prod.snd)).length ∧
      popcount4 s.shared.queue.used =
        popcount4 s.shared.queue.waiting + popcount4 s.shared.queue.working ∧
      ∀ job, ∃ status d, addDecodingJobQueue job s.shared.unlock = .ok (status, d) ∧
        (status = 0 ∧ popcount4 s.shared.queue.used < 64 ∧
            popcount4 d.queue.waiting = popcount4 s.shared.queue.waiting + 1 ∨
          status = -1 ∧ popcount4 s.shared.queue.used = 64 ∧ d.queue = s.shared.queue) := by
  obtain ⟨f, hrun, hf⟩ := h.simulate Prod.snd (Follows.start errorMessages decoding)
    (fun _ _ _ _ hf hs => hf.step hs)
  have hexplains := Explains.run hrun
  have hrep : Represents s.shared.unlock.queue f := hf.represents
  have hitems : f.items.length = f.waiting.length := List.length_map ..
  refine ⟨?_, ?_, hf.represents.popcount_used, fun job => ?_⟩
  · rw [hf.represents.popcount_waiting, hexplains.accepted, List.length_append, hitems]
    push_cast
    ring
  · rw [hf.represents.popcount_working, length_handedItems hrun]
    push_cast
    ring
  · by_cases hfull : ∀ i, f.Taken i
    · refine ⟨_, _, add_of_full rfl hrep hfull job, .inr ⟨rfl, ?_, rfl⟩⟩
      exact hf.represents.popcount_used_eq_iff.mpr hfull
    · obtain ⟨i, hi, q', hadd, hq', -⟩ := add_of_not_full rfl hrep hfull job
      refine ⟨_, _, hadd, .inl ⟨rfl, ?_, ?_⟩⟩
      · have hle := length_slots_le s.shared.queue.used
        have hne := mt hf.represents.popcount_used_eq_iff.mp hfull
        rw [popcount4_eq] at hne ⊢
        omega
      · change popcount4 q'.waiting = _
        rw [hq'.popcount_waiting, hf.represents.popcount_waiting]
        exact_mod_cast List.length_append

/-- Two jobs are added and one is taken. -/
theorem queue_sizes_two_jobs : ∃ l s, Run (FreedStep plainApr) blankSystem l s ∧
    acceptedItems (l.map Prod.snd) =
      [(0, (blankJob 1).toJobData), (1, (blankJob 2).toJobData)] ∧
    handedItems (l.map Prod.snd) = [(0, (blankJob 1).toJobData)] ∧
    releasedSlots (l.map Prod.snd) = [] ∧
    popcount4 s.shared.queue.waiting = 1 ∧ popcount4 s.shared.queue.working = 1 ∧
    popcount4 s.shared.queue.used = 2 := by
  have hrun : ∃ l s, Run (FreedStep plainApr) blankSystem l s ∧
      acceptedItems (l.map Prod.snd) =
        [(0, (blankJob 1).toJobData), (1, (blankJob 2).toJobData)] ∧
      handedItems (l.map Prod.snd) = [(0, (blankJob 1).toJobData)] ∧
      releasedSlots (l.map Prod.snd) = [] :=
    ⟨_, _, ((Run.single (.accepted _ () (blankJob 1) _ rfl)).snoc
      (.accepted _ () (blankJob 2) _ rfl)).snoc (.handed _ () 0 _ rfl), rfl, rfl, rfl⟩
  obtain ⟨l, s, h, haccepted, hhanded, hreleased⟩ := hrun
  obtain ⟨hwaiting, hworking, hused, -⟩ := queue_sizes h
  rw [haccepted, hhanded] at hwaiting
  rw [hhanded, hreleased] at hworking
  rw [hwaiting, hworking] at hused
  exact ⟨l, s, h, haccepted, hhanded, hreleased, hwaiting, hworking, hused⟩

end ModMp
