import ModMp.Allocations
import ModMp.FlacFile

/-!
# The memory of the FLAC buffer

`flac->buf` points to an array of pointers to the rows. `resize_buffer` allocates the array and the
rows, `flac_write` fills the rows, and `close_flac` frees everything that the array points to. When
only the number of samples changes, `resize_buffer` overwrites the pointers in the array, and the
rows that they pointed to are lost. `malloc` always succeeds here.
-/

namespace ModMp

open Buffers Allocations

inductive FlacCell (φ : Type)
  | pointer (p : ℕ)
  | float (x : φ)

/-- The fields of `flac_file_t` that the functions of the buffer use, and the memory. -/
structure FlacMemory (φ : Type) where
  heap : Heap (FlacCell φ)
  buf : Option ℕ
  channels : ℕ
  bufferSampleLen : ℕ
  bufferSampleSeek : ℕ
  bufferSampleCount : ℕ

variable {φ : Type}

namespace FlacMemory

def row (buf : Option ℕ) (i : ℕ) (heap : Heap (FlacCell φ)) : Except MemFault ℕ :=
  match buf with
  | none => .error .access
  | some b =>
      match heap.load b i with
      | .ok (.pointer p) => .ok p
      | _ => .error .access

def setRow (buf : Option ℕ) (i p : ℕ) (heap : Heap (FlacCell φ)) :
    Except MemFault (Heap (FlacCell φ)) :=
  match buf with
  | none => .error .access
  | some b => heap.store b i (.pointer p)

/-- The rows are freed, and then the array; `free(NULL)` does nothing. -/
def freeRows (flac : FlacMemory φ) : Except MemFault (Heap (FlacCell φ)) :=
  (forLoop (fun i heap => (row flac.buf i heap).bind heap.free) flac.channels flac.heap).bind
    (fun heap =>
      match flac.buf with
      | some b => heap.free b
      | none => .ok heap)

def replaceArray (flac : FlacMemory φ) (newchannels : ℕ) : Except MemFault (FlacMemory φ) :=
  flac.freeRows.map (fun heap =>
    { flac with
      heap := (heap.malloc newchannels).2
      buf := some (heap.malloc newchannels).1
      channels := newchannels })

def resizeBuffer (flac : FlacMemory φ) (newchannels newsamples : ℕ) :
    Except MemFault (FlacMemory φ) :=
  if newchannels = flac.channels ∧ newsamples = flac.bufferSampleLen then
    .ok { flac with bufferSampleSeek := 0, bufferSampleCount := 0 }
  else
    (if newchannels ≠ flac.channels then flac.replaceArray newchannels else .ok flac).bind
      (fun flac =>
        (forLoop (fun i heap =>
          setRow flac.buf i (heap.malloc newsamples).1 (heap.malloc newsamples).2)
          newchannels flac.heap).map (fun heap =>
            { flac with
              heap := heap
              bufferSampleLen := newsamples
              bufferSampleSeek := 0
              bufferSampleCount := 0 }))

def write (toFloat : ℤ → ℕ → φ) (flac : FlacMemory φ) (frame : FlacFrame) :
    Except MemFault (FlacMemory φ) :=
  (flac.resizeBuffer frame.channels frame.blocksize).bind (fun flac =>
    (forLoop (fun i => forLoop (fun j heap =>
      (row flac.buf i heap).bind (fun p =>
        heap.store p j (.float (toFloat (frame.buffer i j) frame.bitsPerSample))))
      frame.blocksize) frame.channels flac.heap).map (fun heap =>
        { flac with heap := heap, bufferSampleCount := frame.blocksize }))

def closeFlac (flac : FlacMemory φ) : Except MemFault (Heap (FlacCell φ)) := flac.freeRows

/-- `flac->buf[channel][j]` as `process_flac_file` reads it. -/
def sample (flac : FlacMemory φ) (channel j : ℕ) : Except MemFault φ :=
  (row flac.buf channel flac.heap).bind (fun p =>
    match flac.heap.load p j with
    | .ok (.float x) => .ok x
    | _ => .error .access)

/-- The file in memory that `read_flac_file` has cleared. -/
def cleared : FlacMemory φ := ⟨.empty, none, 0, 0, 0, 0⟩

/-- The array has the pointers of the rows, and the live blocks are these and the lost ones. -/
structure Owns (flac : FlacMemory φ) (rows : List ℕ) (lost : Finset ℕ) : Prop where
  length : rows.length = flac.channels
  nodup : rows.Nodup
  live : flac.heap.live = flac.buf.toFinset ∪ rows.toFinset ∪ lost
  apart : Disjoint rows.toFinset lost
  array : ∀ b, flac.buf = some b → b ∉ rows ∧ b ∉ lost ∧
    (flac.heap.cells b).length = flac.channels ∧
    ∀ i (hi : i < rows.length), (flac.heap.cells b)[i]? = some (some (.pointer rows[i]))
  null : flac.buf = none → flac.channels = 0
  size : ∀ p ∈ rows, (flac.heap.cells p).length = flac.bufferSampleLen

theorem Owns.cleared : Owns (cleared : FlacMemory φ) [] ∅ where
  length := rfl
  nodup := List.nodup_nil
  live := rfl
  apart := Finset.disjoint_empty_right _
  array _ hb := nomatch hb
  null _ := rfl
  size _ hp := absurd hp List.not_mem_nil

theorem row_eq_ok {heap : Heap (FlacCell φ)} {b i p : ℕ} (hb : b ∈ heap.live)
    (hcell : (heap.cells b)[i]? = some (some (.pointer p))) : row (some b) i heap = .ok p := by
  rw [row, Heap.load_eq_ok hb hcell]

namespace Owns

variable {flac : FlacMemory φ} {rows : List ℕ} {lost : Finset ℕ}

theorem mem_live_of_mem (h : Owns flac rows lost) {p : ℕ} (hp : p ∈ rows) : p ∈ flac.heap.live := by
  rw [h.live]
  exact Finset.mem_union_left _ (Finset.mem_union_right _ (List.mem_toFinset.mpr hp))

theorem mem_live_of_buf (h : Owns flac rows lost) {b : ℕ} (hb : flac.buf = some b) :
    b ∈ flac.heap.live := by
  rw [h.live, hb]
  exact Finset.mem_union_left _ (Finset.mem_union_left _ (Finset.mem_singleton_self b))

theorem exists_buf (h : Owns flac rows lost) {i : ℕ} (hi : i < rows.length) :
    ∃ b, flac.buf = some b := by
  rw [← Option.isSome_iff_exists, Option.isSome_iff_ne_none]
  intro hnull
  rw [h.length, h.null hnull] at hi
  exact absurd hi (Nat.not_lt_zero i)

theorem row_eq (h : Owns flac rows lost) {i : ℕ} (hi : i < rows.length)
    {heap : Heap (FlacCell φ)} (hlive : ∀ b, flac.buf = some b → b ∈ heap.live)
    (hcells : ∀ b, flac.buf = some b → heap.cells b = flac.heap.cells b) :
    row flac.buf i heap = .ok rows[i] := by
  obtain ⟨b, hb⟩ := h.exists_buf hi
  obtain ⟨-, -, -, hcell⟩ := h.array b hb
  rw [hb]
  apply row_eq_ok (hlive b hb)
  rw [hcells b hb]
  exact hcell i hi

/-- Everything but the lost blocks is freed. -/
theorem freeRows_eq (h : Owns flac rows lost) :
    ∃ heap, flac.freeRows = .ok heap ∧ heap.live = lost := by
  have hloop :
      forLoop (fun i heap => (row flac.buf i heap).bind heap.free) flac.channels flac.heap =
        .ok (flac.heap.release rows.toFinset) := by
    rw [← h.length]
    apply Heap.forLoop_free _ h.nodup (fun p hp => h.mem_live_of_mem hp)
    intro i hi s hs
    apply h.row_eq hi
    · intro b hb
      refine Finset.mem_sdiff.mpr ⟨h.mem_live_of_buf hb, fun hmem => ?_⟩
      exact (h.array b hb).1 (List.mem_toFinset.mp (hs hmem))
    · exact fun _ _ => rfl
  rw [freeRows, hloop]
  have hlive := h.live
  cases hbuf : flac.buf with
  | none =>
      refine ⟨_, rfl, ?_⟩
      rw [hbuf, Option.toFinset_none, Finset.empty_union] at hlive
      rw [Heap.live_release, hlive, Finset.union_sdiff_cancel_left h.apart]
  | some b =>
      obtain ⟨hrows, hlost, -, -⟩ := h.array b hbuf
      refine ⟨_, Heap.free_eq_ok ?_, ?_⟩
      · exact Finset.mem_sdiff.mpr
          ⟨h.mem_live_of_buf hbuf, fun hmem => hrows (List.mem_toFinset.mp hmem)⟩
      · rw [hbuf, Option.toFinset_some] at hlive
        have hdisjoint : Disjoint ({b} ∪ rows.toFinset) lost :=
          Finset.disjoint_union_left.mpr ⟨Finset.disjoint_singleton_left.mpr hlost, h.apart⟩
        rw [Heap.release_release, Heap.live_release, hlive, Finset.union_comm rows.toFinset,
          Finset.union_sdiff_cancel_left hdisjoint]

end Owns

/-- The array is live and large enough, whatever is in it. -/
structure HasArray (flac : FlacMemory φ) (lost : Finset ℕ) : Prop where
  live : flac.heap.live = flac.buf.toFinset ∪ lost
  array : ∀ b, flac.buf = some b → b ∉ lost ∧ (flac.heap.cells b).length = flac.channels
  null : flac.buf = none → flac.channels = 0

section Resize
variable {flac : FlacMemory φ} {rows : List ℕ} {lost : Finset ℕ}

theorem Owns.hasArray (h : Owns flac rows lost) : HasArray flac (rows.toFinset ∪ lost) where
  live := by rw [h.live, Finset.union_assoc]
  array b hb := by
    obtain ⟨hrows, hlost, hlength, -⟩ := h.array b hb
    refine ⟨fun hmem => ?_, hlength⟩
    rcases Finset.mem_union.mp hmem with hmem | hmem
    · exact hrows (List.mem_toFinset.mp hmem)
    · exact hlost hmem
  null := h.null

theorem HasArray.allocateRows (h : HasArray flac lost) (newsamples : ℕ) :
    ∃ heap rows, forLoop (fun i heap =>
        setRow flac.buf i (heap.malloc newsamples).1 (heap.malloc newsamples).2)
        flac.channels flac.heap = .ok heap ∧
      Owns { flac with
        heap := heap
        bufferSampleLen := newsamples
        bufferSampleSeek := 0
        bufferSampleCount := 0 } rows lost := by
  cases hbuf : flac.buf with
  | none =>
      have hzero := h.null hbuf
      refine ⟨flac.heap, [], by rw [hzero]; rfl, ?_⟩
      have hlive := h.live
      rw [hbuf] at hlive
      exact ⟨hzero.symm, List.nodup_nil, by simpa using hlive, Finset.disjoint_empty_left _,
        fun b hb => absurd hb (by simp), fun _ => hzero, fun p hp => absurd hp List.not_mem_nil⟩
  | some b =>
      obtain ⟨hb, hlength⟩ := h.array b hbuf
      have hlive := h.live
      rw [hbuf, Option.toFinset_some, ← Finset.insert_eq] at hlive
      obtain ⟨heap, hloop, rows, hrows, ha⟩ := Heap.forLoop_malloc (.pointer (φ := φ))
        (hlive ▸ Finset.mem_insert_self b lost) hlength.ge newsamples
      have hnew : ∀ p ∈ rows, p ≠ b ∧ p ∉ lost := by
        intro p hp
        have hp := ha.new p hp
        rw [hlive, Finset.mem_insert, not_or] at hp
        exact hp
      refine ⟨heap, rows, hloop, hrows, ha.nodup, ?_, ?_, ?_, ?_, ha.size⟩
      · change heap.live = (some b).toFinset ∪ rows.toFinset ∪ lost
        rw [ha.live, hlive, Option.toFinset_some, Finset.insert_eq, Finset.union_right_comm]
      · rw [Finset.disjoint_left]
        exact fun p hp => (hnew p (List.mem_toFinset.mp hp)).2
      · intro b' hb'
        cases hb'
        exact ⟨fun hmem => (hnew _ hmem).1 rfl, hb, ha.length.trans hlength, ha.array⟩
      · exact fun hnull => absurd hnull (by simp)

theorem Owns.replaceArray (h : Owns flac rows lost) (newchannels : ℕ) :
    ∃ flac₂, flac.replaceArray newchannels = .ok flac₂ ∧ HasArray flac₂ lost ∧
      flac₂.channels = newchannels := by
  obtain ⟨heap, hfree, hlive⟩ := h.freeRows_eq
  rw [FlacMemory.replaceArray, hfree]
  refine ⟨_, rfl, ⟨?_, ?_, ?_⟩, rfl⟩
  · change insert heap.next heap.live = {heap.next} ∪ lost
    rw [hlive, Finset.insert_eq]
  · rintro b ⟨⟩
    refine ⟨hlive ▸ heap.next_notMem_live, ?_⟩
    change ((heap.malloc newchannels).2.cells heap.next).length = newchannels
    rw [Heap.cells_malloc_self, List.length_replicate]
  · exact fun hnull => absurd hnull (by simp)

def lostRows (channels samples newchannels newsamples : ℕ) : ℕ :=
  if newchannels = channels ∧ newsamples ≠ samples then channels else 0

theorem Owns.resizeBuffer (h : Owns flac rows lost) (newchannels newsamples : ℕ) :
    ∃ flac₂ rows₂ lost₂, flac.resizeBuffer newchannels newsamples = .ok flac₂ ∧
      Owns flac₂ rows₂ lost₂ ∧ flac₂.channels = newchannels ∧
      flac₂.bufferSampleLen = newsamples ∧ flac₂.bufferSampleSeek = 0 ∧
      lost₂.card =
        lost.card + lostRows flac.channels flac.bufferSampleLen newchannels newsamples := by
  rw [FlacMemory.resizeBuffer, lostRows]
  by_cases hchannels : newchannels = flac.channels
  · subst hchannels
    by_cases hsamples : newsamples = flac.bufferSampleLen
    · rw [if_pos ⟨rfl, hsamples⟩, if_neg (fun hne => hne.2 hsamples)]
      exact ⟨_, rows, lost, rfl,
        ⟨h.length, h.nodup, h.live, h.apart, h.array, h.null, h.size⟩, rfl, hsamples.symm, rfl, rfl⟩
    · rw [if_neg (fun heq => hsamples heq.2), if_neg (not_not.mpr rfl), if_pos ⟨rfl, hsamples⟩]
      obtain ⟨heap, rows₂, hloop, howns⟩ := h.hasArray.allocateRows newsamples
      refine ⟨_, rows₂, _, congrArg (Except.map _) hloop, howns, rfl, rfl, rfl, ?_⟩
      rw [Finset.card_union_of_disjoint h.apart, List.toFinset_card_of_nodup h.nodup, h.length,
        Nat.add_comm]
  · rw [if_neg (fun heq => hchannels heq.1), if_pos hchannels, if_neg (fun heq => hchannels heq.1)]
    obtain ⟨flac₂, hreplace, harray, rfl⟩ := h.replaceArray newchannels
    obtain ⟨heap, rows₂, hloop, howns⟩ := harray.allocateRows newsamples
    refine ⟨_, rows₂, lost, ?_, howns, rfl, rfl, rfl, rfl⟩
    rw [hreplace]
    exact congrArg (Except.map _) hloop

end Resize

theorem Owns.of_agrees {flac : FlacMemory φ} {rows : List ℕ} {lost : Finset ℕ}
    (h : Owns flac rows lost) {heap : Heap (FlacCell φ)}
    (hagrees : Heap.Agrees rows.toFinset flac.heap heap) (count : ℕ) :
    Owns { flac with heap := heap, bufferSampleCount := count } rows lost where
  length := h.length
  nodup := h.nodup
  live := hagrees.live.trans h.live
  apart := h.apart
  array b hb := by
    obtain ⟨hrows, hlost, hlength, hcells⟩ := h.array b hb
    have hsame : heap.cells b = flac.heap.cells b :=
      hagrees.cells b (fun hmem => hrows (List.mem_toFinset.mp hmem))
    refine ⟨hrows, hlost, hsame ▸ hlength, ?_⟩
    change ∀ i (hi : i < rows.length), (heap.cells b)[i]? = _
    rw [hsame]
    exact hcells
  null := h.null
  size p hp := (hagrees.length p).trans (h.size p hp)

variable (toFloat : ℤ → ℕ → φ)

theorem Owns.write {flac : FlacMemory φ} {rows : List ℕ} {lost : Finset ℕ}
    (h : Owns flac rows lost) (frame : FlacFrame) :
    ∃ flac₂ rows₂ lost₂, flac.write toFloat frame = .ok flac₂ ∧ Owns flac₂ rows₂ lost₂ ∧
      flac₂.channels = frame.channels ∧ flac₂.bufferSampleLen = frame.blocksize ∧
      flac₂.bufferSampleSeek = 0 ∧ flac₂.bufferSampleCount = frame.blocksize ∧
      lost₂.card = lost.card +
        lostRows flac.channels flac.bufferSampleLen frame.channels frame.blocksize ∧
      ∀ i < frame.channels, ∀ j < frame.blocksize,
        flac₂.sample i j = .ok (toFloat (frame.buffer i j) frame.bitsPerSample) := by
  obtain ⟨flac₁, rows₁, lost₁, hresize, howns, hchannels, hlen, hseek, hcard⟩ :=
    h.resizeBuffer frame.channels frame.blocksize
  obtain ⟨heap, hloop, hagrees, hcells⟩ := Heap.forLoop_fillRows (row flac₁.buf)
    (fun i j => .float (toFloat (frame.buffer i j) frame.bitsPerSample)) (n := frame.blocksize)
    howns.nodup (fun p hp => howns.mem_live_of_mem hp)
    (fun p hp => (hlen.symm.trans (howns.size p hp).symm).le)
    (by
      intro i hi heap hagrees
      apply howns.row_eq hi
      · exact fun b hb => hagrees.live ▸ howns.mem_live_of_buf hb
      · intro b hb
        exact hagrees.cells b
          (fun hmem => (howns.array b hb).1 (List.mem_toFinset.mp hmem)))
  rw [howns.length, hchannels] at hloop
  have howns₂ := howns.of_agrees hagrees frame.blocksize
  refine ⟨_, rows₁, lost₁, ?_, howns₂, hchannels, hlen, hseek, rfl, hcard, ?_⟩
  · rw [FlacMemory.write, hresize]
    change Except.map _ (forLoop _ frame.channels flac₁.heap) = _
    rw [hloop]
    rfl
  · intro i hi j hj
    have hi : i < rows₁.length := by rwa [howns.length, hchannels]
    have hrow : row _ i heap = .ok rows₁[i] :=
      howns₂.row_eq hi (fun b hb => howns₂.mem_live_of_buf hb) (fun _ _ => rfl)
    have hload := Heap.load_eq_ok (howns₂.mem_live_of_mem (List.getElem_mem hi)) (hcells i hi j hj)
    rw [sample, hrow]
    change (match heap.load rows₁[i] j with | .ok (.float x) => Except.ok x | _ => _) = _
    rw [hload]

/-- The number of rows that are lost over all frames, from a buffer of this size on. -/
def lostOver : ℕ → ℕ → List FlacFrame → ℕ
  | _, _, [] => 0
  | channels, samples, frame :: frames =>
      lostRows channels samples frame.channels frame.blocksize +
        lostOver frame.channels frame.blocksize frames

theorem Owns.writes {flac : FlacMemory φ} {rows : List ℕ} {lost : Finset ℕ}
    (h : Owns flac rows lost) (frames : List FlacFrame) :
    ∃ flac₂ rows₂ lost₂, frames.foldlM (FlacMemory.write toFloat) flac = .ok flac₂ ∧
      Owns flac₂ rows₂ lost₂ ∧
      lost₂.card = lost.card + lostOver flac.channels flac.bufferSampleLen frames := by
  induction frames generalizing flac rows lost with
  | nil => exact ⟨flac, rows, lost, rfl, h, rfl⟩
  | cons frame frames ih =>
      obtain ⟨flac₁, rows₁, lost₁, hwrite, h₁, hchannels, hlen, -, -, hcard, -⟩ :=
        h.write toFloat frame
      obtain ⟨flac₂, rows₂, lost₂, hwrites, h₂, hcard₂⟩ := ih h₁
      refine ⟨flac₂, rows₂, lost₂, ?_, h₂, ?_⟩
      · rw [List.foldlM_cons, hwrite]
        exact hwrites
      · rw [hcard₂, hcard, hchannels, hlen, lostOver, Nat.add_assoc]

/-- A frame is followed by frames of another size with as many channels. -/
def LosesRows (frame next : FlacFrame) : Prop :=
  0 < frame.channels ∧ next.channels = frame.channels ∧ next.blocksize ≠ frame.blocksize

theorem lostOver_cons_eq_zero_iff (frame : FlacFrame) (frames : List FlacFrame) :
    lostOver frame.channels frame.blocksize frames = 0 ↔
      (frame :: frames).IsChain (fun frame next => ¬ LosesRows frame next) := by
  induction frames generalizing frame with
  | nil => exact iff_of_true rfl (List.isChain_singleton _)
  | cons next frames ih =>
      have hfirst : lostRows frame.channels frame.blocksize next.channels next.blocksize = 0 ↔
          ¬ LosesRows frame next := by
        unfold lostRows LosesRows
        split_ifs with h
        · simp [h, Nat.pos_iff_ne_zero]
        · simp only [true_iff]
          exact fun hloses => h hloses.2
      rw [lostOver, Nat.add_eq_zero_iff, hfirst, ih next, List.isChain_cons_cons]

theorem lostOver_eq_zero_iff (frames : List FlacFrame) : lostOver 0 0 frames = 0 ↔
    frames.IsChain (fun frame next => ¬ LosesRows frame next) := by
  cases frames with
  | nil => exact iff_of_true rfl List.isChain_nil
  | cons frame frames =>
      have hfirst : lostRows 0 0 frame.channels frame.blocksize = 0 := by
        unfold lostRows
        split_ifs <;> rfl
      rw [lostOver, hfirst, Nat.zero_add, lostOver_cons_eq_zero_iff]

/-- Whatever frames are decoded, no memory is used wrongly, the last frame can be read back as a
whole, and `close_flac` frees all memory unless a frame was followed by one of another size with as
many channels. -/
theorem flac_memory (frames : List FlacFrame) (frame : FlacFrame) :
    ∃ flac heap, (frames ++ [frame]).foldlM (write toFloat) cleared = .ok flac ∧
      (∀ i < frame.channels, ∀ j < frame.blocksize,
        flac.sample i j = .ok (toFloat (frame.buffer i j) frame.bitsPerSample)) ∧
      flac.closeFlac = .ok heap ∧
      heap.live.card = lostOver 0 0 (frames ++ [frame]) ∧
      (heap.live = ∅ ↔ (frames ++ [frame]).IsChain (fun frame next => ¬ LosesRows frame next)) := by
  obtain ⟨flac, rows, lost, hwrites, h, hcard⟩ := Owns.cleared.writes toFloat (frames ++ [frame])
  obtain ⟨flac₁, rows₁, lost₁, hwrites₁, h₁, -⟩ := Owns.cleared.writes toFloat frames
  obtain ⟨flac₂, -, -, hwrite, -, -, -, -, -, -, hsample⟩ := h₁.write toFloat frame
  obtain ⟨heap, hclose, hlive⟩ := h.freeRows_eq
  have hlast : flac₂ = flac := by
    rw [List.foldlM_append, hwrites₁] at hwrites
    change [frame].foldlM (write toFloat) flac₁ = _ at hwrites
    rw [List.foldlM_cons, hwrite] at hwrites
    exact Except.ok.inj hwrites
  have hlost : heap.live.card = lostOver 0 0 (frames ++ [frame]) := by
    rw [hlive, hcard, Finset.card_empty, Nat.zero_add]
    rfl
  refine ⟨flac, heap, hwrites, hlast ▸ hsample, hclose, hlost, ?_⟩
  rw [← Finset.card_eq_zero, hlost, lostOver_eq_zero_iff]

end FlacMemory

end ModMp
