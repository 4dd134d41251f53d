import ModMp.Browser
import ModMp.Runs

/-!
# The ids that a click loads the panes with

The pane at the place `j` is loaded when the panes up to it are clear and those behind it are not
yet. So the ids of its load are those that the panes behind it had before the click on top of those
that are selected after it.
-/

namespace ModMp
open Runs

variable {ρ : Type}

def Pane.selected (pane : Pane ρ) (kind : PaneKind) : List ℕ :=
  if pane.kind = kind then pane.table.selectedIds else []

theorem Pane.selected_clear (pane : Pane ρ) (parameters : QueryParameters) (kind : PaneKind) :
    Pane.selected ⟨pane.kind, pane.table.clear, parameters⟩ kind = [] := by
  rw [Pane.selected, Table.selectedIds_clear, ite_self]

def selection (panes : List (Pane ρ)) (kind : PaneKind) : List ℕ :=
  panes.flatMap (fun pane => pane.selected kind)

theorem selection_append (l m : List (Pane ρ)) (kind : PaneKind) :
    selection (l ++ m) kind = selection l kind ++ selection m kind := List.flatMap_append

theorem selection_cons (pane : Pane ρ) (l : List (Pane ρ)) (kind : PaneKind) :
    selection (pane :: l) kind = pane.selected kind ++ selection l kind := List.flatMap_cons

theorem selection_eq_nil_iff (panes : List (Pane ρ)) :
    (∀ kind, selection panes kind = []) ↔ ∀ pane ∈ panes, pane.table.selectedIds = [] := by
  simp only [selection, List.flatMap_eq_nil_iff]
  constructor
  · intro h pane hpane
    have hselected := h pane.kind pane hpane
    rwa [Pane.selected, if_pos rfl] at hselected
  · intro h kind pane hpane
    rw [Pane.selected, h pane hpane, ite_self]

namespace Browser

theorem ids_addIds (panes : List (Pane ρ)) (p : QueryParameters) (kind : PaneKind) :
    (addIds panes p).ids kind = p.ids kind ++ selection panes kind := by
  induction panes generalizing p with
  | nil => exact (List.append_nil _).symm
  | cons pane panes ih =>
      change (addIds panes (p.setIds pane.kind _)).ids kind = _
      rw [ih, selection_cons, ← List.append_assoc, QueryParameters.ids_setIds, Pane.selected]
      congr 1
      split_ifs with hkind
      · rw [hkind]
      · exact (List.append_nil _).symm

theorem selection_set {panes : List (Pane ρ)} {j : ℕ} (hj : j < panes.length) {pane : Pane ρ}
    {kind : PaneKind} (hpane : pane.selected kind = []) :
    selection (panes.set j pane) kind =
      selection (panes.take j) kind ++ selection (panes.drop (j + 1)) kind := by
  rw [List.set_eq_take_append_cons_drop, if_pos hj, selection_append, selection_cons, hpane,
    List.nil_append]

theorem selection_take_set {panes : List (Pane ρ)} {j : ℕ} (hj : j < panes.length) {pane : Pane ρ}
    {kind : PaneKind} (hpane : pane.selected kind = []) :
    selection ((panes.set j pane).take (j + 1)) kind = selection (panes.take j) kind := by
  have hset : j < (panes.set j pane).length := by rwa [List.length_set]
  rw [List.take_succ_eq_append_getElem hset, List.take_set_of_le le_rfl, List.getElem_set_self,
    selection_append, selection_cons, hpane]
  exact List.append_nil _

theorem loadPane_spec (passingType : PaneKind) (selected : Bool) (passingId : ℕ) (b : Browser ρ)
    {j : ℕ} (hj : j < b.panes.length) :
    ∃ pane parameters, b.loadPane passingType selected passingId j b.panes[j] =
        ⟨b.panes.set j pane, b.loads ++ [(j, parameters)]⟩ ∧
      (∀ kind, pane.selected kind = []) ∧
      ∀ kind, parameters.ids kind =
        selection (b.panes.take j) kind ++ selection (b.panes.drop (j + 1)) kind := by
  refine ⟨_, _, rfl, Pane.selected_clear _ _, fun kind => ?_⟩
  rw [ids_addIds, QueryParameters.ids_wipeIds, List.nil_append]
  exact selection_set hj (Pane.selected_clear _ _ kind)

/-- The loop clears the panes from `j` on and loads each of them once. -/
theorem loadNext_spec (passingType : PaneKind) (selected : Bool) (passingId : ℕ) (b : Browser ρ)
    (j : ℕ) :
    ∃ loaded, (b.loadNext passingType selected passingId j).loads = b.loads ++ loaded ∧
      loaded.map Prod.fst = List.range' j (b.panes.length - j) ∧
      (b.loadNext passingType selected passingId j).panes.length = b.panes.length ∧
      (∀ kind, selection (b.loadNext passingType selected passingId j).panes kind =
        selection (b.panes.take j) kind) ∧
      ∀ load ∈ loaded, ∀ kind, load.2.ids kind =
        selection (b.panes.take j) kind ++ selection (b.panes.drop (load.1 + 1)) kind := by
  induction b, j using loadNext.induct passingType selected passingId with
  | case1 b j hj ih =>
      rw [loadNext, dif_pos hj]
      obtain ⟨pane, parameters, heq, hpane, hids⟩ :=
        loadPane_spec passingType selected passingId b hj
      rw [heq] at ih ⊢
      obtain ⟨loaded, hloads, hplaces, hlength, hselection, hloaded⟩ := ih
      have htake : ∀ kind, selection ((b.panes.set j pane).take (j + 1)) kind =
          selection (b.panes.take j) kind := fun kind => selection_take_set hj (hpane kind)
      rw [List.length_set] at hplaces hlength
      have hsucc : b.panes.length - j = b.panes.length - (j + 1) + 1 := by omega
      refine ⟨(j, parameters) :: loaded, ?_, ?_, hlength, fun kind => ?_, fun load hload kind => ?_⟩
      · rw [hloads, List.append_assoc, List.singleton_append]
      · rw [List.map_cons, hplaces, hsucc, List.range'_succ]
      · rw [hselection, htake]
      · rcases List.mem_cons.mp hload with rfl | hload
        · exact hids kind
        · have hplace := List.mem_map_of_mem (f := Prod.fst) hload
          rw [hplaces, List.mem_range'_1] at hplace
          rw [hloaded load hload, htake, List.drop_set_of_lt (by omega)]
  | case2 b j hj =>
      rw [loadNext, dif_neg hj]
      have hle : b.panes.length ≤ j := Nat.le_of_not_lt hj
      refine ⟨[], (List.append_nil _).symm, ?_, rfl, fun kind => ?_, nofun⟩
      · rw [Nat.sub_eq_zero_of_le hle]
        rfl
      · rw [List.take_of_length_le hle]

theorem next_click_cases {idOf : PaneKind → ρ → ℕ} {b b' : Browser ρ} {k row : ℕ}
    (h : next idOf b (.click k row) = some b') :
    ∃ pane passingType selected passingId, k < b.panes.length ∧
      b' = loadNext ⟨b.panes.set k pane, []⟩ passingType selected passingId (k + 1) := by
  obtain ⟨tableP, hk, h⟩ := Option.bind_eq_some_iff.mp h
  obtain ⟨r, -, h⟩ := Option.bind_eq_some_iff.mp h
  obtain ⟨t, -, rfl⟩ := Option.map_eq_some_iff.mp h
  exact ⟨_, _, _, _, (List.getElem?_eq_some_iff.mp hk).1, rfl⟩

/-- The panes to the right of `k` have been loaded once each, with the ids that are selected now. -/
structure Filtered (k : ℕ) (b : Browser ρ) : Prop where
  loaded : b.loads.map Prod.fst = List.range' (k + 1) (b.panes.length - (k + 1))
  exact_ids : ∀ load ∈ b.loads, ∀ kind, load.2.ids kind = selection b.panes kind

/-- What is asked of the state after an action. -/
def FilteredAfter (b : Browser ρ) : BrowserAction ρ → Prop
  | .click k _ => b.Filtered k
  | _ => True

/-- A click finds nothing selected from the second pane to its right on. -/
def NoneSelectedBeyond (b : Browser ρ) : BrowserAction ρ → Prop
  | .click k _ => ∀ pane ∈ b.panes.drop (k + 2), pane.table.selectedIds = []
  | _ => True

theorem filtered_click_iff {idOf : PaneKind → ρ → ℕ} {b b' : Browser ρ} {k row : ℕ}
    (h : next idOf b (.click k row) = some b') :
    b'.Filtered k ↔ b.NoneSelectedBeyond (.click k row) := by
  obtain ⟨pane, passingType, selected, passingId, hk, rfl⟩ := next_click_cases h
  obtain ⟨loaded, hloads, hplaces, hlength, hselection, hids⟩ :=
    loadNext_spec passingType selected passingId ⟨b.panes.set k pane, []⟩ (k + 1)
  rw [List.nil_append] at hloads
  rw [List.length_set] at hplaces hlength
  have hbehind : ∀ j, k < j → (b.panes.set k pane).drop (j + 1) = b.panes.drop (j + 1) :=
    fun j hj => List.drop_set_of_lt (by omega)
  constructor
  · intro hfiltered
    refine (selection_eq_nil_iff _).mp fun kind => ?_
    by_cases hnext : k + 1 < b.panes.length
    · have hmem : k + 1 ∈ loaded.map Prod.fst := by
        rw [hplaces, List.mem_range'_1]
        omega
      obtain ⟨load, hload, hplace⟩ := List.mem_map.mp hmem
      have heq := hfiltered.exact_ids load (hloads ▸ hload) kind
      rw [hids load hload, hselection, hplace, hbehind (k + 1) k.lt_succ_self] at heq
      exact List.append_right_eq_self.mp heq
    · rw [List.drop_eq_nil_of_le (by omega)]
      rfl
  · intro hnone
    refine ⟨?_, fun load hload kind => ?_⟩
    · rw [hloads, hlength, hplaces]
    · rw [hloads] at hload
      have hplace := List.mem_map_of_mem (f := Prod.fst) hload
      rw [hplaces, List.mem_range'_1] at hplace
      have hnil : selection (b.panes.drop (load.1 + 1)) kind = [] := by
        refine (selection_eq_nil_iff _).mpr (fun p hp => hnone p ?_) kind
        exact List.drop_subset_drop_left b.panes (by omega) hp
      rw [hids load hload, hselection, hbehind load.1 (by omega), hnil, List.append_nil]

theorem filteredAfter_iff {idOf : PaneKind → ρ → ℕ} {b b' : Browser ρ} {a : BrowserAction ρ}
    (h : next idOf b a = some b') : b'.FilteredAfter a ↔ b.NoneSelectedBeyond a := by
  cases a with
  | addTable kind => exact Iff.rfl
  | receive j data => exact Iff.rfl
  | click k row => exact filtered_click_iff h

end Browser

open Browser in
/-- The runs in which every click loads the panes with what is selected are those in which no click
has a selection from the second pane to its right on. -/
theorem clicks_filtered_iff (idOf : PaneKind → ρ → ℕ) (l : List (BrowserAction ρ))
    (b : Browser ρ) :
    Run (fun b a b' => Fires (next idOf) b a b' ∧ b'.FilteredAfter a) empty l b ↔
      Run (fun b a b' => Fires (next idOf) b a b' ∧ b.NoneSelectedBeyond a) empty l b :=
  ⟨fun h => h.mono fun _ _ _ ⟨hs, ha⟩ => ⟨hs, (filteredAfter_iff hs).mp ha⟩,
    fun h => h.mono fun _ _ _ ⟨hs, ha⟩ => ⟨hs, (filteredAfter_iff hs).mpr ha⟩⟩

def songThenArtist : List (BrowserAction ℕ) :=
  [.addTable .artist, .addTable .album, .addTable .song, .receive 0 [.parsed 1],
    .receive 1 [.parsed 2], .receive 2 [.parsed 3], .click 2 0]

open Browser in
/-- The albums are loaded with the song that the click clears. -/
theorem click_loads_cleared : ¬ ∀ (l : List (BrowserAction ℕ)) (k row : ℕ) (b : Browser ℕ),
    Run (Fires (next fun _ n => n)) empty (l ++ [.click k row]) b → b.Filtered k := by
  intro h
  have hrun : (execute (next fun _ n => n) empty (songThenArtist ++ [.click 0 0])).map
      (fun b => (b.loads.map (fun load => load.2.songId), selection b.panes .song)) =
        some ([[3], []], []) := by
    decide +kernel
  obtain ⟨b, hb, heq⟩ := Option.map_eq_some_iff.mp hrun
  obtain ⟨hloads, hselection⟩ := Prod.mk.inj heq
  have hids := (h songThenArtist 0 0 b (run_of_execute hb)).exact_ids
  have hmem : [3] ∈ b.loads.map (fun load => load.2.songId) := by
    rw [hloads]
    exact List.mem_cons_self
  obtain ⟨load, hload, hsong⟩ := List.mem_map.mp hmem
  have hnil : load.2.songId = [] := (hids load hload .song).trans hselection
  rw [hsong] at hnil
  cases hnil

end ModMp
