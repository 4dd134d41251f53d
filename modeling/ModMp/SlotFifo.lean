import ModMp.Runs

/-!
# First in, first out, in numbered slots

Items wait in slots in the order of their arrival. The oldest is handed out and stays in its slot,
out of the order, until the slot is released. The history of a run gives the items accepted, the
items handed out, and the item that each slot was last given. What has been accepted is always what
has been handed out followed by what waits, and a slot that is taken keeps its item.
-/

namespace SlotFifo
open Runs

inductive Event (n : ℕ) (α : Type)
  | accepted (i : Fin n) (a : α)
  | refused
  | handed (i : Fin n) (a : α)
  | nothing
  | lookedUp
  | released (i : Fin n)

/-- The waiting slots from the oldest on, the slots handed out, and the items. -/
structure Fifo (n : ℕ) (α : Type) where
  waiting : List (Fin n)
  working : Finset (Fin n)
  content : Fin n → α
  nodup : waiting.Nodup
  disjoint : ∀ i ∈ waiting, i ∉ working

variable {n : ℕ} {α : Type}

/-- The array `next` leads from each slot of the list to the following one. The entry of the last
slot is free. -/
def Threaded (next : Fin n → ℤ) (l : List (Fin n)) : Prop := l.IsChain (fun i j => next i = j)

theorem Threaded.congr {next next' : Fin n → ℤ} {l : List (Fin n)} (h : Threaded next l)
    (hsame : ∀ i ∈ l, next' i = next i) : Threaded next' l :=
  List.IsChain.imp_of_mem_imp (fun i _ hi _ hij => (hsame i hi).trans hij) h

theorem Threaded.append {next next' : Fin n → ℤ} {l : List (Fin n)} {i : Fin n}
    (h : Threaded next l) (hnodup : l.Nodup)
    (hsame : ∀ j ∈ l, j ∉ l.getLast? → next' j = next j)
    (hlink : ∀ j ∈ l.getLast?, next' j = i) : Threaded next' (l ++ [i]) := by
  rcases List.eq_nil_or_concat l with rfl | ⟨init, t, rfl⟩
  · exact List.isChain_singleton i
  · rw [List.concat_eq_append] at h hnodup hsame hlink ⊢
    obtain ⟨hinit, -, hlast⟩ := List.isChain_append.mp h
    have hnext : ∀ j ∈ init, next' j = next j := by
      intro j hj
      have hjt : t ≠ j := by
        rintro rfl
        exact (List.nodup_append.mp hnodup).2.2 _ hj _ (List.mem_singleton_self _) rfl
      exact hsame j (List.mem_append_left [t] hj) (by simpa using hjt)
    refine List.isChain_append.mpr
      ⟨List.isChain_append.mpr ⟨Threaded.congr hinit hnext, ?_, ?_⟩, ?_, ?_⟩
    · exact List.isChain_singleton t
    · intro j hj k hk
      exact (hnext j (List.mem_of_mem_getLast? hj)).trans (hlast j hj k hk)
    · exact List.isChain_singleton i
    · intro j hj k hk
      cases hk
      exact hlink j hj

namespace Fifo

def empty (content : Fin n → α) : Fifo n α where
  waiting := []
  working := ∅
  content := content
  nodup := List.nodup_nil
  disjoint _ h := absurd h List.not_mem_nil

variable (f : Fifo n α)

def items : List (Fin n × α) := f.waiting.map (fun i => (i, f.content i))

def Taken (i : Fin n) : Prop := i ∈ f.waiting ∨ i ∈ f.working

/-- A new item joins the end of the order in a slot that is free. -/
def add (i : Fin n) (a : α) (hi : ¬ f.Taken i) : Fifo n α where
  waiting := f.waiting ++ [i]
  working := f.working
  content := Function.update f.content i a
  nodup := by
    have hdisjoint : ∀ j ∈ f.waiting, ∀ k ∈ [i], j ≠ k := by
      intro j hj k hk hjk
      rw [hjk, List.mem_singleton.mp hk] at hj
      exact hi (.inl hj)
    exact List.nodup_append.mpr ⟨f.nodup, List.nodup_singleton i, hdisjoint⟩
  disjoint j hj := by
    rcases List.mem_append.mp hj with hold | hnew
    · exact f.disjoint j hold
    · rw [List.mem_singleton.mp hnew]
      exact fun h => hi (.inr h)

/-- The oldest item leaves the order and stays in its slot. -/
def get {i : Fin n} {rest : List (Fin n)} (h : f.waiting = i :: rest) : Fifo n α where
  waiting := rest
  working := insert i f.working
  content := f.content
  nodup := (List.nodup_cons.mp (h ▸ f.nodup)).2
  disjoint j hj := by
    have hne : j ≠ i := by
      rintro rfl
      exact (List.nodup_cons.mp (h ▸ f.nodup)).1 hj
    have hold := f.disjoint j (h ▸ List.mem_cons_of_mem i hj)
    simp only [Finset.mem_insert, hne, hold, or_self, not_false_eq_true]

def release (i : Fin n) : Fifo n α where
  waiting := f.waiting
  working := f.working.erase i
  content := f.content
  nodup := f.nodup
  disjoint j hj h := f.disjoint j hj (Finset.mem_of_mem_erase h)

theorem content_add_self {i : Fin n} {a : α} (hi : ¬ f.Taken i) : (f.add i a hi).content i = a :=
  Function.update_self ..

theorem content_add_of_ne {i j : Fin n} {a : α} (hi : ¬ f.Taken i) (hj : j ≠ i) :
    (f.add i a hi).content j = f.content j := Function.update_of_ne hj ..

theorem items_add {i : Fin n} {a : α} (hi : ¬ f.Taken i) :
    (f.add i a hi).items = f.items ++ [(i, a)] := by
  have hsame : f.waiting.map (fun j => (j, (f.add i a hi).content j)) = f.items := by
    apply List.map_congr_left
    intro j hj
    have hji : j ≠ i := by
      rintro rfl
      exact hi (.inl hj)
    rw [f.content_add_of_ne hi hji]
  change (f.waiting ++ [i]).map (fun j => (j, (f.add i a hi).content j)) = _
  rw [List.map_append, hsame, List.map_singleton, f.content_add_self hi]

theorem items_get {i : Fin n} {rest : List (Fin n)} (h : f.waiting = i :: rest) :
    f.items = (i, f.content i) :: (f.get h).items := by
  rw [items, h]
  rfl

theorem taken_add {i : Fin n} {a : α} (hi : ¬ f.Taken i) (j : Fin n) :
    (f.add i a hi).Taken j ↔ f.Taken j ∨ j = i := by
  unfold Taken add
  simp only [List.mem_append, List.mem_singleton]
  tauto

theorem taken_get {i : Fin n} {rest : List (Fin n)} (h : f.waiting = i :: rest) (j : Fin n) :
    (f.get h).Taken j ↔ f.Taken j := by
  unfold Taken get
  rw [h]
  simp only [Finset.mem_insert, List.mem_cons]
  tauto

theorem taken_release {i : Fin n} (hi : i ∈ f.working) (j : Fin n) :
    (f.release i).Taken j ↔ f.Taken j ∧ j ≠ i := by
  have hnot : i ∉ f.waiting := fun h => f.disjoint i h hi
  unfold Taken release
  simp only [Finset.mem_erase]
  constructor
  · rintro (hwait | ⟨hne, hwork⟩)
    · exact ⟨.inl hwait, fun h => hnot (h ▸ hwait)⟩
    · exact ⟨.inr hwork, hne⟩
  · rintro ⟨hwait | hwork, hne⟩
    · exact .inl hwait
    · exact .inr ⟨hne, hwork⟩

end Fifo

inductive Step : Fifo n α → Event n α → Fifo n α → Prop
  | accepted (f : Fifo n α) (i : Fin n) (a : α) (hi : ¬ f.Taken i) :
      Step f (.accepted i a) (f.add i a hi)
  | refused (f : Fifo n α) (h : ∀ i, f.Taken i) : Step f .refused f
  | handed (f : Fifo n α) (i : Fin n) (rest : List (Fin n)) (h : f.waiting = i :: rest) :
      Step f (.handed i (f.content i)) (f.get h)
  | nothing (f : Fifo n α) (h : f.waiting = []) : Step f .nothing f
  | lookedUp (f : Fifo n α) : Step f .lookedUp f
  | released (f : Fifo n α) (i : Fin n) (h : i ∈ f.working) : Step f (.released i) (f.release i)

def acceptedItem : Event n α → Option (Fin n × α)
  | .accepted i a => some (i, a)
  | _ => none

def handedItem : Event n α → Option (Fin n × α)
  | .handed i a => some (i, a)
  | _ => none

/-- The items accepted in a history, with their slots, from the oldest on. -/
def acceptedItems (l : List (Event n α)) : List (Fin n × α) := l.filterMap acceptedItem

/-- The items handed out in a history, with their slots, from the oldest on. -/
def handedItems (l : List (Event n α)) : List (Fin n × α) := l.filterMap handedItem

def track (occupant : Fin n → Option α) : Event n α → Fin n → Option α
  | .accepted i a => Function.update occupant i (some a)
  | .released i => Function.update occupant i none
  | _ => occupant

/-- The item each slot was given and not yet released from, after a history. -/
def occupant (l : List (Event n α)) : Fin n → Option α := l.foldl track (fun _ => none)

theorem acceptedItems_append (l : List (Event n α)) (e : Event n α) :
    acceptedItems (l ++ [e]) = acceptedItems l ++ (acceptedItem e).toList := by
  rw [acceptedItems, List.filterMap_append]
  cases e <;> rfl

theorem handedItems_append (l : List (Event n α)) (e : Event n α) :
    handedItems (l ++ [e]) = handedItems l ++ (handedItem e).toList := by
  rw [handedItems, List.filterMap_append]
  cases e <;> rfl

theorem occupant_append (l : List (Event n α)) (e : Event n α) :
    occupant (l ++ [e]) = track (occupant l) e := List.foldl_concat ..

/-- The history explains the state. -/
structure Explains (l : List (Event n α)) (f : Fifo n α) : Prop where
  accepted : acceptedItems l = handedItems l ++ f.items
  taken : ∀ i, f.Taken i → occupant l i = some (f.content i)
  free : ∀ i, ¬ f.Taken i → occupant l i = none

namespace Explains

variable {l : List (Event n α)} {f : Fifo n α}

theorem start (content : Fin n → α) : Explains [] (Fifo.empty content) where
  accepted := rfl
  taken i h := by simp [Fifo.Taken, Fifo.empty] at h
  free _ _ := rfl

theorem of_untracked (h : Explains l f) {e : Event n α} (haccepted : acceptedItem e = none)
    (hhanded : handedItem e = none) (htrack : track (occupant l) e = occupant l) :
    Explains (l ++ [e]) f where
  accepted := by
    rw [acceptedItems_append, handedItems_append, haccepted, hhanded, Option.toList_none,
      List.append_nil, List.append_nil, h.accepted]
  taken i hi := by rw [occupant_append, htrack, h.taken i hi]
  free i hi := by rw [occupant_append, htrack, h.free i hi]

theorem add (h : Explains l f) {i : Fin n} (a : α) (hi : ¬ f.Taken i) :
    Explains (l ++ [.accepted i a]) (f.add i a hi) where
  accepted := by
    rw [acceptedItems_append, handedItems_append, h.accepted, f.items_add hi]
    simp only [acceptedItem, handedItem, Option.toList_some, Option.toList_none, List.append_nil,
      List.append_assoc]
  taken j hj := by
    rw [occupant_append, track]
    by_cases hji : j = i
    · rw [hji, Function.update_self, f.content_add_self hi]
    · have hold := ((f.taken_add hi j).mp hj).resolve_right hji
      rw [Function.update_of_ne hji, h.taken j hold, f.content_add_of_ne hi hji]
  free j hj := by
    obtain ⟨hold, hji⟩ := not_or.mp (mt (f.taken_add hi j).mpr hj)
    rw [occupant_append, track, Function.update_of_ne hji, h.free j hold]

theorem get (h : Explains l f) {i : Fin n} {rest : List (Fin n)} (hw : f.waiting = i :: rest) :
    Explains (l ++ [.handed i (f.content i)]) (f.get hw) where
  accepted := by
    rw [acceptedItems_append, handedItems_append, h.accepted, f.items_get hw]
    simp only [acceptedItem, handedItem, Option.toList_some, Option.toList_none, List.append_nil,
      List.append_assoc, List.singleton_append]
  taken j hj := by
    rw [occupant_append]
    exact h.taken j ((f.taken_get hw j).mp hj)
  free j hj := by
    rw [occupant_append]
    exact h.free j (mt (f.taken_get hw j).mpr hj)

theorem release (h : Explains l f) {i : Fin n} (hi : i ∈ f.working) :
    Explains (l ++ [.released i]) (f.release i) where
  accepted := by
    rw [acceptedItems_append, handedItems_append, h.accepted]
    simp only [acceptedItem, handedItem, Option.toList_none, List.append_nil]
    rfl
  taken j hj := by
    obtain ⟨hold, hji⟩ := (f.taken_release hi j).mp hj
    rw [occupant_append, track, Function.update_of_ne hji, h.taken j hold]
    rfl
  free j hj := by
    rw [occupant_append, track]
    by_cases hji : j = i
    · rw [hji, Function.update_self]
    · have hold : ¬ f.Taken j := fun hj' => hj ((f.taken_release hi j).mpr ⟨hj', hji⟩)
      rw [Function.update_of_ne hji, h.free j hold]

theorem step (h : Explains l f) {e : Event n α} {f' : Fifo n α} (hs : Step f e f') :
    Explains (l ++ [e]) f' := by
  cases hs with
  | accepted i a hi => exact h.add a hi
  | refused _ => exact h.of_untracked rfl rfl rfl
  | handed i rest hw => exact h.get hw
  | nothing _ => exact h.of_untracked rfl rfl rfl
  | lookedUp => exact h.of_untracked rfl rfl rfl
  | released i hi => exact h.release hi

/-- The history of every run from the empty order explains the state it ends in. -/
theorem run {content : Fin n → α} (h : Run Step (Fifo.empty content) l f) : Explains l f :=
  h.history (start content) (fun _ _ _ _ hl hs => hl.step hs)

theorem handed_prefix (h : Explains l f) : handedItems l <+: acceptedItems l :=
  ⟨_, h.accepted.symm⟩

theorem waiting_eq_nil_iff (h : Explains l f) :
    f.waiting = [] ↔ acceptedItems l = handedItems l := by
  rw [h.accepted, List.append_right_eq_self, Fifo.items, List.map_eq_nil_iff]

theorem taken_of_occupant (h : Explains l f) {i : Fin n} {a : α} (ha : occupant l i = some a) :
    f.Taken i ∧ f.content i = a := by
  by_cases hi : f.Taken i
  · exact ⟨hi, Option.some.inj ((h.taken i hi).symm.trans ha)⟩
  · rw [h.free i hi] at ha
    cases ha

end Explains

def releasedSlot : Event n α → Option (Fin n)
  | .released i => some i
  | .accepted _ _ | .refused | .handed _ _ | .nothing | .lookedUp => none

/-- The slots released in a history, from the oldest on. -/
def releasedSlots (l : List (Event n α)) : List (Fin n) := l.filterMap releasedSlot

theorem releasedSlots_append (l : List (Event n α)) (e : Event n α) :
    releasedSlots (l ++ [e]) = releasedSlots l ++ (releasedSlot e).toList := by
  rw [releasedSlots, List.filterMap_append]
  cases e <;> rfl

theorem length_handedItems {content : Fin n → α} {l : List (Event n α)} {f : Fifo n α}
    (h : Run Step (Fifo.empty content) l f) :
    (handedItems l).length = (releasedSlots l).length + f.working.card := by
  refine h.history (I := fun l f =>
    (handedItems l).length = (releasedSlots l).length + f.working.card) rfl ?_
  intro l f e f' ih hs
  rw [handedItems_append, releasedSlots_append, List.length_append, List.length_append, ih]
  cases hs with
  | handed i rest hw =>
      have hi : i ∉ f.working := f.disjoint i (hw ▸ List.mem_cons_self)
      have hcard := Finset.card_insert_of_notMem hi
      change (releasedSlots l).length + f.working.card + 1 =
        (releasedSlots l).length + 0 + (insert i f.working).card
      omega
  | released i hi =>
      have hcard := Finset.card_erase_add_one hi
      change (releasedSlots l).length + f.working.card + 0 =
        (releasedSlots l).length + 1 + (f.working.erase i).card
      omega
  | accepted | refused | nothing | lookedUp => rfl

end SlotFifo
