import Mathlib.Data.List.Perm.Basic
import Mathlib.Data.List.Nodup
import Mathlib.Tactic

/-!
# Pairing off keys with the entries of a pool

Each of a list of keys takes the first entry of a pool that has this key. When the pool has every
key often enough, the entries with a key are taken in their order, and the others are left in
theirs.
-/

namespace PairOff

variable {β γ κ : Type} [DecidableEq κ] (key : β → κ)

/-- The entries that are taken, and what is left of the pool. -/
def takeFirst : List κ → List β → List (Option β) × List β
  | [], pool => ([], pool)
  | k :: ks, pool =>
      let r := takeFirst ks (pool.eraseP (key · = k))
      (pool.find? (key · = k) :: r.1, r.2)

/-- Every key has taken an entry. -/
structure Paired (ks : List κ) (pool taken rest : List β) : Prop where
  keys : taken.map key = ks
  perm : (taken ++ rest).Perm pool
  sublist : rest.Sublist pool
  order : ∀ k, taken.filter (key · = k) = (pool.filter (key · = k)).take (ks.count k)

theorem filter_cons_of_key {k : κ} {b : β} (h : key b = k) (l : List β) :
    (b :: l).filter (key · = k) = b :: l.filter (key · = k) :=
  List.filter_cons_of_pos (p := (key · = k)) (decide_eq_true h)

theorem filter_cons_of_ne {k : κ} {b : β} (h : key b ≠ k) (l : List β) :
    (b :: l).filter (key · = k) = l.filter (key · = k) :=
  List.filter_cons_of_neg (p := (key · = k)) (by simpa using h)

variable {key}

theorem filter_of_find? {k : κ} {pool : List β} {b : β}
    (h : pool.find? (key · = k) = some b) :
    key b = k ∧ (b :: pool.eraseP (key · = k)).Perm pool ∧
      pool.filter (key · = k) = b :: (pool.eraseP (key · = k)).filter (key · = k) ∧
      ∀ k' ≠ k, (pool.eraseP (key · = k)).filter (key · = k') = pool.filter (key · = k') := by
  obtain ⟨hb, before, after, rfl, hbefore⟩ := List.find?_eq_some_iff_append.mp h
  have hkey : key b = k := of_decide_eq_true hb
  have hne : ∀ a ∈ before, ¬ (decide (key a = k) = true) := fun a ha => by simpa using hbefore a ha
  have herase : (before ++ b :: after).eraseP (key · = k) = before ++ after := by
    rw [List.eraseP_append_right _ (fun a ha => hne a ha),
      List.eraseP_cons_of_pos (p := (key · = k)) hb]
  have hnone : before.filter (key · = k) = [] := List.filter_eq_nil_iff.mpr hne
  rw [herase]
  refine ⟨hkey, List.perm_middle.symm, ?_, fun k' hk' => ?_⟩
  · rw [List.filter_append, List.filter_append, hnone, filter_cons_of_key _ hkey]
    rfl
  · have hkey' : key b ≠ k' := fun heq => hk' (heq.symm.trans hkey)
    rw [List.filter_append, List.filter_append, filter_cons_of_ne _ hkey']

theorem takeFirst_paired (key : β → κ) {ks : List κ} {pool : List β}
    (h : ∀ k, ks.count k ≤ (pool.map key).count k) :
    ∃ taken rest, takeFirst key ks pool = (taken.map some, rest) ∧
      Paired key ks pool taken rest := by
  induction ks generalizing pool with
  | nil => exact ⟨[], pool, rfl, rfl, List.Perm.refl _, List.Sublist.refl _, fun k => by simp⟩
  | cons k ks ih =>
      have hmem : k ∈ pool.map key := by
        rw [← List.one_le_count_iff]
        exact le_trans (by rw [List.count_cons_self]; omega) (h k)
      obtain ⟨a, ha, hka⟩ := List.mem_map.mp hmem
      have hfound : (pool.find? (key · = k)).isSome :=
        List.find?_isSome.mpr ⟨a, ha, decide_eq_true hka⟩
      obtain ⟨b, hb⟩ := Option.isSome_iff_exists.mp hfound
      obtain ⟨hkey, hperm, hsame, hother⟩ := filter_of_find? hb
      have hcount : ∀ k', ks.count k' ≤ ((pool.eraseP (key · = k)).map key).count k' := by
        intro k'
        have hk' := h k'
        rw [← (hperm.map key).count_eq, List.map_cons, hkey, List.count_cons,
          List.count_cons] at hk'
        exact Nat.le_of_add_le_add_right hk'
      obtain ⟨taken, rest, htake, hpaired⟩ := ih hcount
      refine ⟨b :: taken, rest, ?_, ?_, ?_, hpaired.sublist.trans List.eraseP_sublist, ?_⟩
      · rw [takeFirst, htake, hb]
        rfl
      · rw [List.map_cons, hkey, hpaired.keys]
      · exact (hpaired.perm.cons b).trans hperm
      · intro k'
        by_cases hk' : k' = k
        · subst hk'
          rw [filter_cons_of_key _ hkey, hpaired.order, hsame, List.count_cons_self,
            List.take_succ_cons]
        · have hkey' : key b ≠ k' := fun heq => hk' (heq.symm.trans hkey)
          rw [filter_cons_of_ne _ hkey', hpaired.order, hother k' hk',
            List.count_cons_of_ne (Ne.symm hk')]

/-- What is left are the entries of the pool that were not taken. -/
theorem Paired.rest_eq [BEq γ] [LawfulBEq γ] {f : β → γ} {ks : List κ} {pool taken rest : List β}
    (h : Paired key ks pool taken rest) (hdistinct : (pool.map f).Nodup) :
    rest = pool.filter (fun b => f b ∉ taken.map f) := by
  have hnodup : ((taken ++ rest).map f).Nodup := (h.perm.map f).nodup_iff.mpr hdistinct
  rw [List.map_append, List.nodup_append] at hnodup
  have hrest : rest.filter (fun b => f b ∉ taken.map f) = rest := by
    apply List.filter_eq_self.mpr
    intro b hb
    exact decide_eq_true (fun hmem => hnodup.2.2 _ hmem _ (List.mem_map_of_mem hb) rfl)
  have htaken : taken.filter (fun b => f b ∉ taken.map f) = [] := by
    apply List.filter_eq_nil_iff.mpr
    intro b hb
    simpa using ⟨b, hb, rfl⟩
  have hlength := (h.perm.filter (fun b => f b ∉ taken.map f)).length_eq
  rw [List.filter_append, htaken, List.nil_append, hrest] at hlength
  have hsub := h.sublist.filter (fun b => f b ∉ taken.map f)
  rw [hrest] at hsub
  exact hsub.eq_of_length hlength

end PairOff
