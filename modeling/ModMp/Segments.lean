import Mathlib.Data.List.TakeWhile
import Mathlib.Tactic

/-!
# Texts cut into segments

A separator stands before each segment of a text, and a text ends at the first of some other
letters. Segments are read two at a time, as a key and its value. What was joined is read back
exactly when no key and no value has one of these letters in it.
-/

namespace Segments

variable {α : Type} [DecidableEq α]

def join (sep : α) (words : List (List α)) : List α := words.flatMap (fun w => sep :: w)

omit [DecidableEq α] in
theorem join_cons (sep : α) (w : List α) (words : List (List α)) :
    join sep (w :: words) = sep :: (w ++ join sep words) := List.flatMap_cons

omit [DecidableEq α] in
theorem intercalate_cons (sep w : List α) (words : List (List α)) :
    sep.intercalate (w :: words) = w ++ words.flatMap (fun v => sep ++ v) := by
  induction words generalizing w with
  | nil => simp
  | cons v words ih =>
      rw [List.flatMap_cons, List.append_assoc, ← ih]
      simp [List.intercalate]

omit [DecidableEq α] in
theorem map_intercalate {β : Type} (f : α → β) (sep : List α) (words : List (List α)) :
    (sep.intercalate words).map f = (sep.map f).intercalate (words.map (List.map f)) := by
  cases words with
  | nil => rfl
  | cons w words =>
      rw [intercalate_cons, List.map_cons, intercalate_cons, List.map_append, List.map_flatMap,
        List.flatMap_map]
      simp only [List.map_append]

omit [DecidableEq α] in
theorem length_intercalate_le (sep : List α) {words : List (List α)} {k : ℕ}
    (h : ∀ w ∈ words, w.length ≤ k) :
    (sep.intercalate words).length ≤ words.length * (k + sep.length) := by
  cases words with
  | nil => exact Nat.zero_le _
  | cons w words =>
      have hrest : (words.flatMap (fun v => sep ++ v)).length ≤
          words.length * (k + sep.length) := by
        rw [List.length_flatMap, ← smul_eq_mul, ← List.length_map (fun v => (sep ++ v).length)]
        refine List.sum_le_card_nsmul _ _ fun n hn => ?_
        obtain ⟨v, hv, rfl⟩ := List.mem_map.mp hn
        have hle := h v (List.mem_cons_of_mem w hv)
        rw [List.length_append]
        omega
      have hle := h w List.mem_cons_self
      rw [intercalate_cons, List.length_append, List.length_cons, Nat.succ_mul]
      omega

omit [DecidableEq α] in
theorem forall_mem_intercalate {P : α → Prop} {sep : List α} {words : List (List α)}
    (hsep : ∀ c ∈ sep, P c) (h : ∀ w ∈ words, ∀ c ∈ w, P c) :
    ∀ c ∈ sep.intercalate words, P c := by
  cases words with
  | nil => exact List.forall_mem_nil _
  | cons w words =>
      rw [intercalate_cons, List.forall_mem_append]
      refine ⟨h w List.mem_cons_self, fun c hc => ?_⟩
      obtain ⟨v, hv, hc⟩ := List.mem_flatMap.mp hc
      rcases List.mem_append.mp hc with hc | hc
      · exact hsep c hc
      · exact h v (List.mem_cons_of_mem w hv) c hc

theorem splitOn_append_join {sep : α} {words : List (List α)} (h : ∀ w ∈ words, sep ∉ w)
    (u : List α) : (u ++ join sep words).splitOn sep = u.splitOn sep ++ words := by
  induction words generalizing u with
  | nil => rw [join, List.flatMap_nil, List.append_nil, List.append_nil]
  | cons w words ih =>
      have hw := h w List.mem_cons_self
      have hwords : ∀ v ∈ words, sep ∉ v := fun v hv => h v (List.mem_cons_of_mem w hv)
      rw [join_cons, List.splitOn_append_cons_self, ih hwords, List.splitOn_eq_singleton hw,
        List.singleton_append]

theorem mem_of_mem_splitOn {sep : α} {l w : List α} (hw : w ∈ l.splitOn sep) {c : α}
    (hc : c ∈ w) : c ∈ l ∧ c ≠ sep := by
  induction l generalizing w with
  | nil =>
      rw [List.splitOn_nil, List.mem_singleton] at hw
      rw [hw] at hc
      exact absurd hc List.not_mem_nil
  | cons a l ih =>
      rw [List.splitOn_cons_eq_if_modifyHead] at hw
      split_ifs at hw with ha
      · rcases List.mem_cons.mp hw with rfl | hw
        · exact absurd hc List.not_mem_nil
        · exact ⟨List.mem_cons_of_mem a (ih hw hc).1, (ih hw hc).2⟩
      · obtain ⟨v, vs, hvs⟩ := List.exists_cons_of_ne_nil (List.splitOn_ne_nil sep l)
        rw [hvs, List.modifyHead_cons] at hw
        rcases List.mem_cons.mp hw with rfl | hw
        · rcases List.mem_cons.mp hc with rfl | hc
          · exact ⟨List.mem_cons_self, by simpa using ha⟩
          · have hv := ih (w := v) (by rw [hvs]; exact List.mem_cons_self) hc
            exact ⟨List.mem_cons_of_mem a hv.1, hv.2⟩
        · have hv := ih (w := w) (by rw [hvs]; exact List.mem_cons_of_mem v hw) hc
          exact ⟨List.mem_cons_of_mem a hv.1, hv.2⟩

def pairs {β : Type} : List β → List (β × β)
  | k :: v :: words => (k, v) :: pairs words
  | _ => []

theorem pairs_of_unpaired {β : Type} {words : List β}
    (h : ∀ k v rest, words = k :: v :: rest → False) : pairs words = [] := by
  rw [pairs]
  exact h

theorem pairs_of_short {β : Type} {words : List β} (h : words.length < 2) : pairs words = [] := by
  cases words with
  | nil => rfl
  | cons w words =>
      cases words with
      | nil => rfl
      | cons v words =>
          rw [List.length_cons, List.length_cons] at h
          omega

def unpair {β : Type} (l : List (β × β)) : List β := l.flatMap (fun p => [p.1, p.2])

@[simp] theorem pairs_unpair {β : Type} (l : List (β × β)) : pairs (unpair l) = l := by
  induction l with
  | nil => rfl
  | cons p l ih =>
      change (p.1, p.2) :: pairs (unpair l) = p :: l
      rw [ih]

theorem mem_of_mem_pairs {β : Type} {words : List β} {p : β × β} (h : p ∈ pairs words) :
    p.1 ∈ words ∧ p.2 ∈ words := by
  induction words using pairs.induct with
  | case1 k v words ih =>
      rcases List.mem_cons.mp h with rfl | h
      · exact ⟨List.mem_cons_self, List.mem_cons_of_mem _ List.mem_cons_self⟩
      · exact ⟨List.mem_cons_of_mem _ (List.mem_cons_of_mem _ (ih h).1),
          List.mem_cons_of_mem _ (List.mem_cons_of_mem _ (ih h).2)⟩
  | case2 words hne =>
      rw [pairs] at h
      · exact absurd h List.not_mem_nil
      · exact hne

theorem mem_unpair {β : Type} {l : List (β × β)} {w : β} :
    w ∈ unpair l ↔ ∃ p ∈ l, w = p.1 ∨ w = p.2 := by
  simp [unpair]

/-- The text up to the first stop, cut at the separator. -/
def cut (stop : α → Bool) (sep : α) (l : List α) : List (List α) :=
  (l.takeWhile (fun c => !stop c)).splitOn sep

def Clean (stop : α → Bool) (sep : α) (w : List α) : Prop := ∀ c ∈ w, c ≠ sep ∧ stop c = false

instance (stop : α → Bool) (sep : α) (w : List α) : Decidable (Clean stop sep w) :=
  inferInstanceAs (Decidable (∀ c ∈ w, _))

omit [DecidableEq α] in
theorem Clean.append {stop : α → Bool} {sep : α} {v w : List α} (hv : Clean stop sep v)
    (hw : Clean stop sep w) : Clean stop sep (v ++ w) := by
  intro c hc
  rcases List.mem_append.mp hc with hc | hc
  · exact hv c hc
  · exact hw c hc

omit [DecidableEq α] in
theorem Clean.flatMap {β : Type} {stop : α → Bool} {sep : α} {f : β → List α} {l : List β}
    (h : ∀ b ∈ l, Clean stop sep (f b)) : Clean stop sep (l.flatMap f) := by
  intro c hc
  obtain ⟨b, hb, hc⟩ := List.mem_flatMap.mp hc
  exact h b hb c hc

section Cut
variable {stop : α → Bool} {sep : α}

theorem clean_of_mem_cut {l w : List α} (hw : w ∈ cut stop sep l) : Clean stop sep w := by
  intro c hc
  obtain ⟨hmem, hne⟩ := mem_of_mem_splitOn hw hc
  exact ⟨hne, by simpa using List.mem_takeWhile_imp hmem⟩

theorem cut_append_join (hsep : stop sep = false) {u : List α} (hu : ∀ c ∈ u, stop c = false)
    {words : List (List α)} (h : ∀ w ∈ words, Clean stop sep w) :
    cut stop sep (u ++ join sep words) = u.splitOn sep ++ words := by
  have hall : (u ++ join sep words).takeWhile (fun c => !stop c) = u ++ join sep words := by
    apply List.takeWhile_eq_self_iff.mpr
    intro c hc
    rw [Bool.not_eq_true']
    rcases List.mem_append.mp hc with hc | hc
    · exact hu c hc
    · obtain ⟨w, hw, hc⟩ := List.mem_flatMap.mp hc
      rcases List.mem_cons.mp hc with rfl | hc
      · exact hsep
      · exact (h w hw c hc).2
  rw [cut, hall]
  exact splitOn_append_join (fun w hw hsep => (h w hw sep hsep).1 rfl) u

/-- Behind a head without stops, joined pairs are read back exactly when all their letters are
clean. -/
theorem pairs_cut_eq_iff (hsep : stop sep = false) {u : List α} (hu : ∀ c ∈ u, stop c = false)
    (l : List (List α × List α)) :
    pairs ((cut stop sep (u ++ join sep (unpair l))).drop (u.splitOn sep).length) = l ↔
      ∀ p ∈ l, Clean stop sep p.1 ∧ Clean stop sep p.2 := by
  constructor
  · intro h p hp
    rw [← h] at hp
    obtain ⟨hkey, hvalue⟩ := mem_of_mem_pairs hp
    exact ⟨clean_of_mem_cut (List.mem_of_mem_drop hkey),
      clean_of_mem_cut (List.mem_of_mem_drop hvalue)⟩
  · intro h
    have hwords : ∀ w ∈ unpair l, Clean stop sep w := by
      intro w hw
      obtain ⟨p, hp, rfl | rfl⟩ := mem_unpair.mp hw
      · exact (h p hp).1
      · exact (h p hp).2
    rw [cut_append_join hsep hu hwords, List.drop_left, pairs_unpair]

end Cut

end Segments
