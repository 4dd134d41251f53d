import ModMp.MusicQueryUrl

/-!
# The tables of the client

A table shows one row for each object of a response. A row that is added gives its object the
index of the row, and `addRows` adds rows for the objects that have none yet. The class `selected`
of a row is its flag. What a column and an arrow look like is left out.
-/

namespace ModMp

deriving instance DecidableEq for SortOrder

theorem clear_songs : ClearText (text "songs") := by decide

theorem artistName_ne_nil : text "artist_name" ≠ [] := by decide

theorem albumName_ne_nil : text "album_name" ≠ [] := by decide

/-- An object of a response, with the fields that tables and playlists write into it. -/
structure DataElem (ρ : Type) where
  row : ρ
  tableIndex : Option ℕ
  shuffledIndex : Option ℕ

/-- An object as it is in a response. -/
def DataElem.parsed {ρ : Type} (row : ρ) : DataElem ρ := ⟨row, none, none⟩

structure TableRow (ρ : Type) where
  dataElem : DataElem ρ
  selected : Bool

/-- A column without an order and one whose order is the empty string are both `unset`. -/
structure Column extends SortColumn where
  search : Bool

structure Table (ρ : Type) where
  columns : List Column
  selectedIds : List ℕ
  rows : List (TableRow ρ)

theorem map_set_eq {α β : Type} {f : α → β} {l : List α} {i : ℕ} {a a' : α}
    (hget : l[i]? = some a) (h : f a' = f a) : (l.set i a').map f = l.map f := by
  obtain ⟨hlt, rfl⟩ := List.getElem?_eq_some_iff.mp hget
  have hmap : i < (l.map f).length := by rwa [List.length_map]
  have hat : f l[i] = (l.map f)[i] := by rw [List.getElem_map]
  rw [List.map_set, h, hat, List.set_getElem_self]

/-- The order of a column after a click on its arrow for `order`. -/
def Column.sortClick (column : Column) (order : SortOrder) : Column :=
  if column.order = order ∨ (order ≠ .ascending ∧ order ≠ .descending) then
    { column with order := .unset }
  else { column with order := order }

namespace Table

variable {ρ : Type}

def clear (t : Table ρ) : Table ρ := { t with selectedIds := [], rows := [] }

/-- A row at an index that may be undefined. -/
def rowAt (t : Table ρ) (index : Option ℕ) : Option (TableRow ρ) :=
  index.bind (fun index => t.rows[index]?)

def setSelected (t : Table ρ) (index : Option ℕ) (selected : Bool) : Table ρ :=
  match index with
  | some index =>
      { t with rows := t.rows.modify index (fun row => { row with selected := selected }) }
  | none => t

def deselectRow (t : Table ρ) (index : Option ℕ) : ℤ × Table ρ :=
  match t.rowAt index with
  | some row => if row.selected then (0, t.setSelected index false) else (-1, t)
  | none => (-1, t)

/-- A row that is selected is deselected. A read of a row that is not there throws. -/
def selectRow (t : Table ρ) (index : Option ℕ) : Option (ℤ × Table ρ) :=
  (t.rowAt index).map (fun row =>
    if row.selected then (-1, (t.deselectRow index).2) else (0, t.setSelected index true))

/-- One round of the loop of `addRows`. -/
def addRow (t : Table ρ) (dataElem : DataElem ρ) : Table ρ :=
  { t with rows := t.rows ++ [⟨dataElem, false⟩] }

/-- The callback of a query with all objects it has got so far. The objects get their indices. -/
def addRows (t : Table ρ) (data : List (DataElem ρ)) : Table ρ × List (DataElem ρ) :=
  let i := t.rows.length
  if h : i < data.length then
    let dataElem := { data[i] with tableIndex := some i }
    addRows (t.addRow dataElem) (data.set i dataElem)
  else (t, data)
termination_by data.length - t.rows.length
decreasing_by
  simp only [addRow, List.length_append, List.length_set, List.length_singleton]
  omega

def shown (t : Table ρ) : List ρ := t.rows.map (fun row => row.dataElem.row)

@[simp] theorem selectedIds_clear (t : Table ρ) : t.clear.selectedIds = [] := rfl

theorem shown_setSelected (t : Table ρ) (index : Option ℕ) (selected : Bool) :
    (t.setSelected index selected).shown = t.shown := by
  cases index with
  | none => rfl
  | some index =>
      apply List.ext_getElem?
      intro i
      rw [shown, shown, List.getElem?_map, List.getElem?_map, setSelected, List.getElem?_modify,
        Option.map_eq_map, Option.map_map]
      congr 1
      funext row
      rw [Function.comp_apply]
      split_ifs <;> rfl

theorem shown_deselectRow (t : Table ρ) (index : Option ℕ) :
    (t.deselectRow index).2.shown = t.shown := by
  unfold deselectRow
  cases t.rowAt index with
  | none => rfl
  | some row =>
      dsimp only
      split_ifs
      · exact shown_setSelected t index false
      · rfl

theorem shown_selectRow {t t' : Table ρ} {index : Option ℕ} {result : ℤ}
    (h : t.selectRow index = some (result, t')) : t'.shown = t.shown := by
  obtain ⟨row, -, hrow⟩ := Option.map_eq_some_iff.mp h
  split_ifs at hrow
  · cases hrow
    exact shown_deselectRow t index
  · cases hrow
    exact shown_setSelected t index true

theorem addRows_spec (t : Table ρ) (data : List (DataElem ρ)) :
    (t.addRows data).1.shown = t.shown ++ (data.drop t.rows.length).map DataElem.row ∧
      (t.addRows data).2.map DataElem.row = data.map DataElem.row ∧
      (t.addRows data).1.columns = t.columns ∧
      (t.addRows data).1.selectedIds = t.selectedIds := by
  induction t, data using addRows.induct with
  | case1 t data i h dataElem ih =>
      obtain ⟨hshown, hdata, hcolumns, hids⟩ := ih
      have hset : (data.set i dataElem).map DataElem.row = data.map DataElem.row :=
        map_set_eq (List.getElem?_eq_getElem h) rfl
      rw [addRows, dif_pos h]
      refine ⟨?_, hdata.trans hset, hcolumns, hids⟩
      have hdrop : (data.drop i).map DataElem.row =
          dataElem.row :: (data.drop (i + 1)).map DataElem.row := by
        rw [List.drop_eq_getElem_cons h, List.map_cons]
      have hrest : ((data.set i dataElem).drop (i + 1)).map DataElem.row =
          (data.drop (i + 1)).map DataElem.row := by
        rw [List.map_drop, hset, List.map_drop]
      have hlength : (t.addRow dataElem).rows.length = i + 1 := by
        rw [addRow, List.length_append, List.length_singleton]
      rw [hshown, hlength, hrest, hdrop, shown, shown, addRow, List.map_append]
      simp only [List.map_cons, List.map_nil, List.append_assoc, List.singleton_append]
  | case2 t data i h =>
      rw [addRows, dif_neg h]
      have hnil : data.drop t.rows.length = [] := List.drop_eq_nil_of_le (Nat.le_of_not_lt h)
      rw [hnil, List.map_nil, List.append_nil]
      exact ⟨rfl, rfl, rfl, rfl⟩

end Table

end ModMp
