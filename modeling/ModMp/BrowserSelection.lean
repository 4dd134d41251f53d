import ModMp.BrowserRequests

/-!
# What the panes of the browser show as selected

A click on a row changes the class of the row and the list of the selected ids, each in its own way:
the class is found by the index of the row, and an id is pushed or spliced. Both are the same
selection, up to the order of the clicks, and the playlist that is made from it asks for it.
-/

namespace ModMp
open Runs Segments MusicIndexer CLib

variable {ρ : Type}

namespace Table
variable {t : Table ρ} {f : ρ → ℕ}

def highlighted (f : ρ → ℕ) (t : Table ρ) : List ℕ :=
  (t.rows.filter TableRow.selected).map (fun row => f row.dataElem.row)

/-- The objects have the indices of their rows. -/
def Indexed (t : Table ρ) : Prop :=
  ∀ (i : ℕ) (row : TableRow ρ), t.rows[i]? = some row → row.dataElem.tableIndex = some i

/-- A row with the class of the other kind. -/
def toggle (t : Table ρ) (i : ℕ) (row : TableRow ρ) : Table ρ :=
  { t with rows := t.rows.set i { row with selected := !row.selected } }

theorem indexed_of_rows_nil (h : t.rows = []) : t.Indexed := by
  intro i row hrow
  rw [h] at hrow
  cases hrow

theorem Indexed.addRow (h : t.Indexed) (dataElem : DataElem ρ) :
    (t.addRow { dataElem with tableIndex := some t.rows.length }).Indexed := by
  intro i row hrow
  rw [Table.addRow, List.getElem?_append] at hrow
  split_ifs at hrow with hi
  · exact h i row hrow
  · have hle : t.rows.length ≤ i := Nat.le_of_not_lt hi
    rw [List.getElem?_singleton] at hrow
    split_ifs at hrow with hzero
    cases hrow
    exact congrArg some (Nat.le_antisymm hle (Nat.sub_eq_zero_iff_le.mp hzero))

theorem highlighted_addRow (t : Table ρ) (dataElem : DataElem ρ) :
    (t.addRow dataElem).highlighted f = t.highlighted f := by
  rw [highlighted, addRow, List.filter_append, List.filter_cons_of_neg Bool.false_ne_true,
    List.filter_nil, List.append_nil, highlighted]

theorem Indexed.addRows (h : t.Indexed) (data : List (DataElem ρ)) :
    (t.addRows data).1.Indexed ∧ (t.addRows data).1.highlighted f = t.highlighted f := by
  induction t, data using Table.addRows.induct with
  | case1 t data i hi dataElem ih =>
      obtain ⟨hindexed, hhighlighted⟩ := ih (h.addRow data[i])
      rw [Table.addRows, dif_pos hi]
      exact ⟨hindexed, hhighlighted.trans (highlighted_addRow t _)⟩
  | case2 t data i hi =>
      rw [Table.addRows, dif_neg hi]
      exact ⟨h, rfl⟩

theorem setSelected_eq {i : ℕ} {row : TableRow ρ} (hrow : t.rows[i]? = some row)
    (selected : Bool) :
    t.setSelected (some i) selected =
      { t with rows := t.rows.set i { row with selected := selected } } := by
  rw [setSelected, List.modify_eq_set_getElem?, hrow]
  rfl

theorem Indexed.selectRow (h : t.Indexed) {i : ℕ} {row : TableRow ρ}
    (hrow : t.rows[i]? = some row) :
    t.selectRow row.dataElem.tableIndex =
      some (if row.selected then -1 else 0, t.toggle i row) := by
  have hat : t.rowAt (some i) = some row := hrow
  rw [h i row hrow, Table.selectRow, hat, Option.map_some, toggle]
  cases hselected : row.selected with
  | true =>
      rw [if_pos rfl, if_pos rfl, deselectRow, hat]
      dsimp only
      rw [if_pos hselected, setSelected_eq hrow]
      rfl
  | false =>
      rw [if_neg Bool.false_ne_true, if_neg Bool.false_ne_true, setSelected_eq hrow]
      rfl

theorem Indexed.toggle (h : t.Indexed) {i : ℕ} {row : TableRow ρ} (hrow : t.rows[i]? = some row) :
    (t.toggle i row).Indexed := by
  intro j other hother
  rw [Table.toggle, List.getElem?_set] at hother
  split_ifs at hother with hij hlt
  · cases hother
    exact hij ▸ h i row hrow
  · exact h j other hother

theorem perm_toggle {i : ℕ} {row : TableRow ρ} (hrow : t.rows[i]? = some row) {ids : List ℕ}
    (h : ids.Perm (t.highlighted f)) :
    (passId ids (!row.selected) (f row.dataElem.row)).Perm ((t.toggle i row).highlighted f) := by
  obtain ⟨hlt, heq⟩ := List.getElem?_eq_some_iff.mp hrow
  have hrows : t.rows = t.rows.take i ++ row :: t.rows.drop (i + 1) := by
    rw [← heq, List.cons_getElem_drop_succ, List.take_append_drop]
  have hset : (t.toggle i row).rows =
      t.rows.take i ++ { row with selected := !row.selected } :: t.rows.drop (i + 1) := by
    rw [toggle, List.set_eq_take_append_cons_drop, if_pos hlt]
  rw [highlighted, hrows, List.filter_append, List.map_append] at h
  rw [highlighted, hset, List.filter_append, List.map_append]
  cases hselected : row.selected with
  | true =>
      rw [List.filter_cons_of_pos hselected, List.map_cons] at h
      rw [List.filter_cons_of_neg (by simp)]
      have herase := (h.trans List.perm_middle).erase (f row.dataElem.row)
      rwa [List.erase_cons_head] at herase
  | false =>
      rw [List.filter_cons_of_neg (by simp [hselected])] at h
      rw [List.filter_cons_of_pos (by simp), List.map_cons]
      exact (h.append_right _).trans ((List.perm_append_singleton _ _).trans
        List.perm_middle.symm)

end Table

/-- The rows have their indices, and the list of the pane has the ids of the selected ones. -/
structure Pane.Shows (idOf : PaneKind → ρ → ℕ) (pane : Pane ρ) : Prop where
  indexed : pane.table.Indexed
  selectedIds : pane.table.selectedIds.Perm (pane.table.highlighted (idOf pane.kind))

/-- A pane whose row has been clicked: the row has changed its class, and its id goes into the list
or is taken out. -/
def Pane.click (idOf : PaneKind → ρ → ℕ) (pane : Pane ρ) (i : ℕ) (row : TableRow ρ) : Pane ρ :=
  { pane with
    table :=
      { columns := pane.table.columns
        selectedIds := passId pane.table.selectedIds (!row.selected)
          (idOf pane.kind row.dataElem.row)
        rows := (pane.table.toggle i row).rows } }

theorem Pane.Shows.click {idOf : PaneKind → ρ → ℕ} {pane : Pane ρ} (h : pane.Shows idOf) {i : ℕ}
    {row : TableRow ρ} (hrow : pane.table.rows[i]? = some row) :
    (pane.click idOf i row).Shows idOf :=
  ⟨h.indexed.toggle hrow, Table.perm_toggle hrow h.selectedIds⟩

theorem Pane.Shows.receive {idOf : PaneKind → ρ → ℕ} {pane : Pane ρ} (h : pane.Shows idOf)
    (data : List (DataElem ρ)) :
    Pane.Shows idOf { pane with table := (pane.table.addRows data).1 } := by
  obtain ⟨hindexed, hhighlighted⟩ := h.indexed.addRows data
  refine ⟨hindexed, ?_⟩
  rw [hhighlighted, (pane.table.addRows_spec data).2.2.2]
  exact h.selectedIds

theorem Pane.shows_of_empty {idOf : PaneKind → ρ → ℕ} {pane : Pane ρ}
    (hids : pane.table.selectedIds = []) (hrows : pane.table.rows = []) : pane.Shows idOf := by
  refine ⟨Table.indexed_of_rows_nil hrows, ?_⟩
  rw [hids, Table.highlighted, hrows]
  exact List.Perm.nil

namespace Browser
variable {idOf : PaneKind → ρ → ℕ} {b b' : Browser ρ}

/-- The ids of a type that the panes show as selected. -/
def highlighted (idOf : PaneKind → ρ → ℕ) (b : Browser ρ) (kind : PaneKind) : List ℕ :=
  b.panes.flatMap (fun pane =>
    if pane.kind = kind then pane.table.highlighted (idOf kind) else [])

/-- The loop clears the tables from the pane `j` on and leaves the others as they are. -/
structure Cleared (j : ℕ) (l l' : List (Pane ρ)) : Prop where
  length : l'.length = l.length
  left : ∀ i < j, l'[i]? = l[i]?
  right : ∀ (i : ℕ) (pane : Pane ρ), j ≤ i → l'[i]? = some pane →
    ∃ old, l[i]? = some old ∧ pane.kind = old.kind ∧ pane.table = old.table.clear

theorem cleared_loadNext (passingType : PaneKind) (selected : Bool) (passingId : ℕ)
    (b : Browser ρ) (j : ℕ) :
    Cleared j b.panes (b.loadNext passingType selected passingId j).panes := by
  induction b, j using loadNext.induct passingType selected passingId with
  | case1 b j hj ih =>
      rw [loadNext, dif_pos hj]
      obtain ⟨pane, hpanes, hkind, htable⟩ : ∃ pane,
          (b.loadPane passingType selected passingId j b.panes[j]).panes = b.panes.set j pane ∧
            pane.kind = b.panes[j].kind ∧ pane.table = b.panes[j].table.clear :=
        ⟨_, rfl, rfl, rfl⟩
      rw [hpanes] at ih
      refine ⟨by rw [ih.length, List.length_set], fun i hi => ?_, fun i other hi hother => ?_⟩
      · rw [ih.left i (Nat.lt_succ_of_lt hi), List.getElem?_set_ne (Nat.ne_of_gt hi)]
      · rcases Nat.eq_or_lt_of_le hi with rfl | hlt
        · rw [ih.left j (Nat.lt_succ_self j), List.getElem?_set_self hj] at hother
          cases hother
          exact ⟨_, List.getElem?_eq_getElem hj, hkind, htable⟩
        · obtain ⟨old, hold, hsame⟩ := ih.right i other hlt hother
          rw [List.getElem?_set_ne (Nat.ne_of_lt hlt)] at hold
          exact ⟨old, hold, hsame⟩
  | case2 b j hj =>
      rw [loadNext, dif_neg hj]
      refine ⟨rfl, fun _ _ => rfl, fun i pane hi hpane => ?_⟩
      exact absurd ((List.getElem?_eq_some_iff.mp hpane).1.trans_le (Nat.le_of_not_lt hj))
        (Nat.not_lt_of_le hi)

/-- What a click on a row does: its pane is clicked, and the panes to the right are cleared. -/
structure Clicked (idOf : PaneKind → ρ → ℕ) (k i : ℕ) (pane : Pane ρ) (row : TableRow ρ)
    (b b' : Browser ρ) : Prop where
  length : b'.panes.length = b.panes.length
  left : ∀ j < k, b'.panes[j]? = b.panes[j]?
  clicked : b'.panes[k]? = some (pane.click idOf i row)
  right : ∀ (j : ℕ) (other : Pane ρ), k < j → b'.panes[j]? = some other →
    ∃ old, b.panes[j]? = some old ∧ other.kind = old.kind ∧ other.table = old.table.clear

theorem next_click {k i : ℕ} {pane : Pane ρ} (hpane : b.panes[k]? = some pane)
    (hindexed : pane.table.Indexed) {row : TableRow ρ} (hrow : pane.table.rows[i]? = some row) :
    ∃ b', next idOf b (.click k i) = some b' ∧ Clicked idOf k i pane row b b' := by
  have hk : k < b.panes.length := (List.getElem?_eq_some_iff.mp hpane).1
  have hselected : decide ((if row.selected = true then (-1 : ℤ) else 0) = 0) = !row.selected := by
    cases row.selected <;> rfl
  have hnext : next idOf b (.click k i) =
      some (loadNext ⟨b.panes.set k (pane.click idOf i row), []⟩ pane.kind (!row.selected)
        (idOf pane.kind row.dataElem.row) (k + 1)) := by
    rw [next, hpane, Option.bind_some, hrow, Option.bind_some, clickRow, hindexed.selectRow hrow,
      Option.map_some]
    dsimp only
    rw [hselected]
    rfl
  have hcleared := cleared_loadNext pane.kind (!row.selected) (idOf pane.kind row.dataElem.row)
    ⟨b.panes.set k (pane.click idOf i row), []⟩ (k + 1)
  refine ⟨_, hnext, ?_, fun j hj => ?_, ?_, fun j other hj hother => ?_⟩
  · rw [hcleared.length, List.length_set]
  · rw [hcleared.left j (Nat.lt_succ_of_lt hj), List.getElem?_set_ne (Nat.ne_of_gt hj)]
  · rw [hcleared.left k (Nat.lt_succ_self k), List.getElem?_set_self hk]
  · obtain ⟨old, hold, hsame⟩ := hcleared.right j other hj hother
    rw [List.getElem?_set_ne (Nat.ne_of_lt hj)] at hold
    exact ⟨old, hold, hsame⟩

def Shows (idOf : PaneKind → ρ → ℕ) (b : Browser ρ) : Prop := ∀ pane ∈ b.panes, pane.Shows idOf

theorem Clicked.shows {k i : ℕ} {pane : Pane ρ} {row : TableRow ρ}
    (hclicked : Clicked idOf k i pane row b b') (h : b.Shows idOf)
    (hpane : b.panes[k]? = some pane) (hrow : pane.table.rows[i]? = some row) :
    b'.Shows idOf := by
  intro other hother
  obtain ⟨j, hj⟩ := List.getElem?_of_mem hother
  rcases Nat.lt_trichotomy j k with hlt | rfl | hlt
  · rw [hclicked.left j hlt] at hj
    exact h other (List.mem_of_getElem? hj)
  · rw [hclicked.clicked] at hj
    cases hj
    exact (h pane (List.mem_of_getElem? hpane)).click hrow
  · obtain ⟨old, -, -, htable⟩ := hclicked.right j other hlt hj
    exact Pane.shows_of_empty (by rw [htable, Table.selectedIds_clear]) (by rw [htable]; rfl)

theorem Shows.step (h : b.Shows idOf) {a : BrowserAction ρ} (hstep : next idOf b a = some b') :
    b'.Shows idOf := by
  cases a with
  | addTable kind =>
      cases hstep
      intro pane hpane
      rcases List.mem_append.mp hpane with hpane | hpane
      · exact h pane hpane
      · rw [List.mem_singleton.mp hpane]
        exact Pane.shows_of_empty rfl rfl
  | receive j data =>
      cases hstep
      intro pane hpane
      obtain ⟨i, hi⟩ := List.getElem?_of_mem hpane
      rw [receive, List.getElem?_modify] at hi
      obtain ⟨old, hold, rfl⟩ := Option.map_eq_some_iff.mp hi
      have hshows := h old (List.mem_of_getElem? hold)
      split_ifs
      · exact hshows.receive data
      · exact hshows
  | click k i =>
      obtain ⟨pane, hpane, hrows⟩ := Option.bind_eq_some_iff.mp hstep
      obtain ⟨row, hrow, -⟩ := Option.bind_eq_some_iff.mp hrows
      obtain ⟨b₂, hnext, hclicked⟩ :=
        next_click hpane (h pane (List.mem_of_getElem? hpane)).indexed hrow
      cases hnext.symm.trans hstep
      exact hclicked.shows h hpane hrow

theorem shows_of_run {l : List (BrowserAction ρ)} (hrun : Run (Fires (next idOf)) empty l b) :
    b.Shows idOf :=
  hrun.invariant (fun _ hpane => absurd hpane List.not_mem_nil) (fun _ _ _ h hs => h.step hs)

/-- The selected ids of a type are those of the rows that are shown as selected. -/
theorem Shows.selection (h : b.Shows idOf) (kind : PaneKind) :
    (selection b.panes kind).Perm (b.highlighted idOf kind) := by
  apply List.Perm.flatMap_left
  intro pane hpane
  rw [Pane.selected]
  split_ifs with hkind
  · rw [← hkind]
    exact (h pane hpane).selectedIds
  · exact List.Perm.nil

end Browser

open Browser in
/-- In every reachable browser, a playlist from the selection has the ids of the rows that are shown
as selected, and every row can be clicked. The click changes the class of this row and no other,
clears the panes to the right, and a second click on the row changes it back. -/
theorem browser_selection {idOf : PaneKind → ρ → ℕ} {l : List (BrowserAction ρ)} {b : Browser ρ}
    (hrun : Run (Fires (next idOf)) empty l b) :
    (∀ kind, (b.newPlaylistFromSelection.ids kind).Perm (b.highlighted idOf kind)) ∧
      ∀ (k i : ℕ) (pane : Pane ρ) (row : TableRow ρ), b.panes[k]? = some pane →
        pane.table.rows[i]? = some row →
        ∃ b', next idOf b (.click k i) = some b' ∧ Clicked idOf k i pane row b b' ∧
          ∃ b₂ pane₂, next idOf b' (.click k i) = some b₂ ∧ b₂.panes[k]? = some pane₂ ∧
            pane₂.table.rows = pane.table.rows ∧
            pane₂.table.selectedIds.Perm pane.table.selectedIds := by
  have hall := shows_of_run hrun
  refine ⟨fun kind => ?_, fun k i pane row hpane hrow => ?_⟩
  · rw [ids_newPlaylistFromSelection]
    exact hall.selection kind
  have hshows := hall pane (List.mem_of_getElem? hpane)
  obtain ⟨b', hnext, hclicked⟩ := next_click hpane hshows.indexed hrow
  have hlt : i < pane.table.rows.length := (List.getElem?_eq_some_iff.mp hrow).1
  have hrow₂ : (pane.click idOf i row).table.rows[i]? =
      some { row with selected := !row.selected } := List.getElem?_set_self hlt
  have hshows₂ := hshows.click hrow
  obtain ⟨b₂, hnext₂, hclicked₂⟩ :=
    next_click hclicked.clicked hshows₂.indexed hrow₂
  have hrows : ((pane.click idOf i row).click idOf i
      { row with selected := !row.selected }).table.rows = pane.table.rows := by
    change (pane.table.rows.set i _).set i { row with selected := !!row.selected } = _
    rw [List.set_set, Bool.not_not, ← (List.getElem?_eq_some_iff.mp hrow).2]
    exact List.set_getElem_self hlt
  refine ⟨b', hnext, hclicked, b₂, _, hnext₂, hclicked₂.clicked, hrows, ?_⟩
  have hperm := (hshows₂.click hrow₂).selectedIds
  rw [Table.highlighted, hrows] at hperm
  exact hperm.trans hshows.selectedIds.symm

open Browser in
/-- Of two songs the first is selected, and then the second. -/
theorem browser_selection_two : ∃ b b' pane, execute (next fun _ n => n) empty
      [.addTable .song, .receive 0 [.parsed 3, .parsed 4], .click 0 0] = some b ∧
    b.newPlaylistFromSelection.ids .song = [3] ∧
    next (fun _ n => n) b (.click 0 1) = some b' ∧ b'.panes[0]? = some pane ∧
    pane.table.selectedIds = [3, 4] := by
  have hrun : (execute (next fun _ n => n) empty
      [.addTable .song, .receive 0 [.parsed 3, .parsed 4], .click 0 0]).bind
        (fun b => b.panes[0]?.bind (fun pane => pane.table.rows[1]?.map (fun row =>
          (b.highlighted (fun _ n => n) .song, pane.table.selectedIds, row.selected,
            row.dataElem.row)))) =
        some ([3], [3], false, 4) := by
    decide +kernel
  obtain ⟨b, hb, hstate⟩ := Option.bind_eq_some_iff.mp hrun
  obtain ⟨pane, hpane, hstate⟩ := Option.bind_eq_some_iff.mp hstate
  obtain ⟨row, hrow, hstate⟩ := Option.map_eq_some_iff.mp hstate
  obtain ⟨hhighlighted, hstate⟩ := Prod.mk.inj hstate
  obtain ⟨hids, hstate⟩ := Prod.mk.inj hstate
  obtain ⟨hselected, hid⟩ := Prod.mk.inj hstate
  obtain ⟨hperm, hclicks⟩ := browser_selection (run_of_execute hb)
  obtain ⟨b', hnext, hclicked, -⟩ := hclicks 0 1 pane row hpane hrow
  refine ⟨b, b', _, hb, List.perm_singleton.mp (hhighlighted ▸ hperm .song), hnext,
    hclicked.clicked, ?_⟩
  change passId pane.table.selectedIds (!row.selected) row.dataElem.row = [3, 4]
  rw [hids, hselected, hid]
  rfl

end ModMp
