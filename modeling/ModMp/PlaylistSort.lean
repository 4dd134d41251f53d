import ModMp.Runs
import ModMp.UiTable

/-!
# The sort list of a playlist

A click on an arrow changes the order of the column in the table, and then the sort list of the
playlist. The loop over the sort list goes through the keys that it had before the loop; a key that
a removal has made invalid is passed over, and the entry behind a removed one is not looked at.
-/

namespace ModMp
open Runs

/-- The `for`-`in` loop over the remaining keys: the sort list, and whether the column was found. -/
def sortPlaylistLoop (col : SortColumn) :
    List ℕ → List SortColumn → Bool → List SortColumn × Bool
  | [], sort, found => (sort, found)
  | sCol :: keys, sort, found =>
      match sort[sCol]? with
      | some sortCol =>
          if sortCol.friendlyName = col.friendlyName then
            if col.order = .ascending ∨ col.order = .descending then
              sortPlaylistLoop col keys (sort.set sCol { sortCol with order := col.order }) true
            else sortPlaylistLoop col keys (sort.eraseIdx sCol) true
          else sortPlaylistLoop col keys sort found
      | none => sortPlaylistLoop col keys sort found

/-- The sort list after a click that gave the column `col` its order. -/
def sortPlaylistColumns (col : SortColumn) (sort : List SortColumn) : List SortColumn :=
  let (sort, found) := sortPlaylistLoop col (List.range sort.length) sort false
  if found then sort else sort ++ [col]

inductive Arrow
  | up
  | down

def Arrow.order : Arrow → SortOrder
  | .up => .ascending
  | .down => .descending

structure ArrowClick where
  column : ℕ
  arrow : Arrow

structure TableSort where
  columns : List Column
  sort : List SortColumn

def TableSort.click (s : TableSort) (click : ArrowClick) : Option TableSort :=
  s.columns[click.column]?.map (fun column =>
    let column := column.sortClick click.arrow.order
    { columns := s.columns.set click.column column
      sort := sortPlaylistColumns column.toSortColumn s.sort })

def songColumns : List Column :=
  [⟨⟨.ascending, text "disc_no", by decide⟩, false⟩,
    ⟨⟨.ascending, text "track_no", by decide⟩, false⟩,
    ⟨⟨.unset, text "song_title", by decide⟩, true⟩,
    ⟨⟨.unset, text "artist_name", artistName_ne_nil⟩, true⟩,
    ⟨⟨.ascending, text "album_name", albumName_ne_nil⟩, true⟩]

def defaultSort : List SortColumn :=
  [⟨.ascending, text "album_name", albumName_ne_nil⟩, ⟨.ascending, text "disc_no", by decide⟩,
    ⟨.ascending, text "track_no", by decide⟩]

/-- What the constructor of a playlist starts with. -/
def TableSort.create : TableSort := ⟨songColumns, defaultSort⟩

abbrev names (sort : List SortColumn) : List Text := sort.map SortColumn.friendlyName

theorem SortOrder.ne_unset {o : SortOrder} : o = .ascending ∨ o = .descending ↔ o ≠ .unset := by
  cases o <;> decide

theorem sortColumn_eq {c d : SortColumn} (horder : c.order = d.order)
    (hname : c.friendlyName = d.friendlyName) : c = d := by
  cases c
  cases d
  cases horder
  cases hname
  rfl

section Loop
variable {col : SortColumn} {sort : List SortColumn}

theorem sortPlaylistLoop_of_ne {keys : List ℕ} (h : ∀ k ∈ keys, ∀ c : SortColumn,
    sort[k]? = some c → c.friendlyName ≠ col.friendlyName) (found : Bool) :
    sortPlaylistLoop col keys sort found = (sort, found) := by
  induction keys with
  | nil => rfl
  | cons k keys ih =>
      have hkeys := ih (fun k' hk' => h k' (List.mem_cons_of_mem k hk'))
      rw [sortPlaylistLoop]
      cases hget : sort[k]? with
      | none => exact hkeys
      | some c =>
          dsimp only
          rw [if_neg (h k List.mem_cons_self c hget)]
          exact hkeys

theorem sortPlaylistLoop_skip {before rest : List SortColumn}
    (hbefore : ∀ c ∈ before, c.friendlyName ≠ col.friendlyName) (keys : List ℕ) :
    sortPlaylistLoop col (List.range before.length ++ keys) (before ++ rest) false =
      sortPlaylistLoop col keys (before ++ rest) false := by
  have hskip : ∀ n, n ≤ before.length → ∀ keys,
      sortPlaylistLoop col (List.range n ++ keys) (before ++ rest) false =
        sortPlaylistLoop col keys (before ++ rest) false := by
    intro n
    induction n with
    | zero => exact fun _ _ => rfl
    | succ n ih =>
        intro hn keys
        have hlt : n < before.length := hn
        rw [List.range_succ, List.append_assoc, ih hlt.le, List.singleton_append,
          sortPlaylistLoop, List.getElem?_append_left hlt, List.getElem?_eq_getElem hlt]
        dsimp only
        rw [if_neg (hbefore _ (List.getElem_mem hlt))]
  exact hskip before.length le_rfl keys

/-- The keys behind the column change nothing, whether it has stayed or was taken out. -/
theorem sortPlaylistLoop_behind (before mid : List SortColumn) {after : List SortColumn}
    (hmid : mid.length ≤ 1) (hafter : ∀ c ∈ after, c.friendlyName ≠ col.friendlyName) {n : ℕ}
    {found : Bool} :
    sortPlaylistLoop col (List.range' (before.length + 1) n) (before ++ (mid ++ after)) found =
      (before ++ (mid ++ after), found) := by
  apply sortPlaylistLoop_of_ne
  intro k hk c hc
  have hle : before.length + 1 ≤ k := (List.mem_range'_1.mp hk).1
  rw [List.getElem?_append_right (by omega), List.getElem?_append_right (by omega)] at hc
  exact hafter c (List.mem_of_getElem? hc)

end Loop

theorem sortPlaylistColumns_of_notMem {col : SortColumn} {sort : List SortColumn}
    (h : col.friendlyName ∉ names sort) : sortPlaylistColumns col sort = sort ++ [col] := by
  have hloop : sortPlaylistLoop col (List.range sort.length) sort false = (sort, false) := by
    apply sortPlaylistLoop_of_ne
    rintro k - c hc heq
    exact h (heq ▸ List.mem_map_of_mem (List.mem_of_getElem? hc))
  rw [sortPlaylistColumns, hloop]
  rfl

theorem exists_split {name : Text} {sort : List SortColumn} (hnodup : (names sort).Nodup)
    (hmem : name ∈ names sort) : ∃ before old after, sort = before ++ old :: after ∧
      old.friendlyName = name ∧ ∀ c ∈ before ++ after, c.friendlyName ≠ name := by
  obtain ⟨old, hold, rfl⟩ := List.mem_map.mp hmem
  obtain ⟨before, after, rfl⟩ := List.append_of_mem hold
  rw [names, List.map_append, List.map_cons, List.nodup_middle, List.nodup_cons,
    ← List.map_append] at hnodup
  exact ⟨before, old, after, rfl, rfl, fun c hc heq => hnodup.1 (heq ▸ List.mem_map_of_mem hc)⟩

theorem sortPlaylistColumns_of_split {col old : SortColumn} {before after : List SortColumn}
    (hname : old.friendlyName = col.friendlyName)
    (hother : ∀ c ∈ before ++ after, c.friendlyName ≠ col.friendlyName) :
    sortPlaylistColumns col (before ++ old :: after) =
      if col.order ≠ .unset then before ++ col :: after else before ++ after := by
  have hkeys : List.range (before ++ old :: after).length = List.range before.length ++
      before.length :: List.range' (before.length + 1) after.length := by
    rw [List.length_append, List.length_cons, List.range_eq_range', List.range_eq_range',
      ← List.range'_succ, ← List.range'_append_1, Nat.zero_add]
  have hget : (before ++ old :: after)[before.length]? = some old := by
    rw [List.getElem?_append_right le_rfl, Nat.sub_self, List.getElem?_cons_zero]
  have hafter : ∀ c ∈ after, c.friendlyName ≠ col.friendlyName :=
    fun c hc => hother c (List.mem_append_right before hc)
  have hcol : { old with order := col.order } = col := sortColumn_eq rfl hname
  rw [sortPlaylistColumns, hkeys,
    sortPlaylistLoop_skip (fun c hc => hother c (List.mem_append_left after hc)),
    sortPlaylistLoop, hget]
  dsimp only
  rw [if_pos hname, hcol]
  by_cases horder : col.order ≠ .unset
  · have hset : (before ++ old :: after).set before.length col = before ++ ([col] ++ after) := by
      rw [List.set_append_right _ _ le_rfl, Nat.sub_self, List.set_cons_zero]
      rfl
    rw [if_pos (SortOrder.ne_unset.mpr horder), if_pos horder, hset,
      sortPlaylistLoop_behind before [col] le_rfl hafter]
    rfl
  · have herase : (before ++ old :: after).eraseIdx before.length = before ++ ([] ++ after) := by
      rw [List.eraseIdx_append_of_length_le le_rfl, Nat.sub_self, List.eraseIdx_cons_zero]
      rfl
    rw [if_neg (mt SortOrder.ne_unset.mp horder), if_neg horder, herase,
      sortPlaylistLoop_behind before [] (Nat.zero_le 1) hafter]
    rfl

theorem names_sortPlaylistColumns (col : SortColumn) {sort : List SortColumn}
    (hnodup : (names sort).Nodup) : names (sortPlaylistColumns col sort) =
      if col.friendlyName ∉ names sort then names sort ++ [col.friendlyName]
      else if col.order ≠ .unset then names sort
      else (names sort).filter (· ≠ col.friendlyName) := by
  by_cases hmem : col.friendlyName ∈ names sort
  · obtain ⟨before, old, after, rfl, hname, hother⟩ := exists_split hnodup hmem
    rw [sortPlaylistColumns_of_split hname hother, if_neg (not_not.mpr hmem)]
    by_cases horder : col.order ≠ .unset
    · rw [if_pos horder, if_pos horder, names, names, List.map_append,
        List.map_append, List.map_cons, List.map_cons, hname]
    · have hkeep : (names (before ++ after)).filter (· ≠ col.friendlyName) =
          names (before ++ after) := by
        apply List.filter_eq_self.mpr
        intro name hin
        obtain ⟨c, hc, rfl⟩ := List.mem_map.mp hin
        exact decide_eq_true (hother c hc)
      rw [if_neg horder, if_neg horder, ← hkeep, names, names,
        List.map_append, List.map_append, List.map_cons, hname, List.filter_append,
        List.filter_append, List.filter_cons_of_neg (by simp)]
  · rw [sortPlaylistColumns_of_notMem hmem, if_pos hmem, names, List.map_append]
    rfl

theorem mem_sortPlaylistColumns {col : SortColumn} {sort : List SortColumn}
    (hnodup : (names sort).Nodup) (hfound : col.order = .unset → col.friendlyName ∈ names sort)
    (c : SortColumn) : c ∈ sortPlaylistColumns col sort ↔
      c = col ∧ col.order ≠ .unset ∨ c ∈ sort ∧ c.friendlyName ≠ col.friendlyName := by
  by_cases hmem : col.friendlyName ∈ names sort
  · obtain ⟨before, old, after, rfl, hname, hother⟩ := exists_split hnodup hmem
    rw [sortPlaylistColumns_of_split hname hother]
    have hold_iff : c ∈ before ++ old :: after ∧ c.friendlyName ≠ col.friendlyName ↔
        c ∈ before ++ after := by
      rw [List.mem_append, List.mem_cons, List.mem_append]
      constructor
      · rintro ⟨hc | rfl | hc, hne⟩
        · exact .inl hc
        · exact absurd hname hne
        · exact .inr hc
      · intro hc
        exact ⟨hc.imp_right .inr, hother c (List.mem_append.mpr hc)⟩
    rw [hold_iff]
    by_cases horder : col.order ≠ .unset
    · rw [if_pos horder, List.mem_append, List.mem_cons, List.mem_append, and_iff_left horder]
      exact or_left_comm
    · rw [if_neg horder, or_iff_right (fun h => horder h.2)]
  · have horder : col.order ≠ .unset := fun h => hmem (hfound h)
    have hother : c ∈ sort → c.friendlyName ≠ col.friendlyName :=
      fun hc heq => hmem (heq ▸ List.mem_map_of_mem hc)
    rw [sortPlaylistColumns_of_notMem hmem, List.mem_append, List.mem_singleton,
      and_iff_left horder, and_iff_left_of_imp hother]
    exact or_comm

/-- The sort list has no column twice, and it has the columns with an order, with that order. -/
structure Agrees (columns : List Column) (sort : List SortColumn) : Prop where
  nodup : (names sort).Nodup
  mem : ∀ c : SortColumn, c ∈ sort ↔
    c.order ≠ .unset ∧ ∃ column ∈ columns, column.toSortColumn = c

/-- Columns that stay in the sort list keep their order, and at most one new column comes last. -/
structure KeepsPositions (sort sort' : List SortColumn) : Prop where
  names_eq : names sort' = (names sort).filter (· ∈ names sort') ++
    (names sort').filter (· ∉ names sort)
  one : ((names sort').filter (· ∉ names sort)).length ≤ 1

theorem keepsPositions_of_subset {sort sort' : List SortColumn}
    (h : names sort' = (names sort).filter (· ∈ names sort')) : KeepsPositions sort sort' := by
  have hnone : (names sort').filter (· ∉ names sort) = [] := by
    apply List.filter_eq_nil_iff.mpr
    intro name hname
    rw [h] at hname
    simpa using (List.mem_filter.mp hname).1
  exact ⟨by rw [hnone, List.append_nil, ← h], by rw [hnone]; exact Nat.zero_le 1⟩

theorem sortPlaylistColumns_keepsPositions (col : SortColumn) {sort : List SortColumn}
    (hnodup : (names sort).Nodup) : KeepsPositions sort (sortPlaylistColumns col sort) := by
  have hnames := names_sortPlaylistColumns col hnodup
  by_cases hmem : col.friendlyName ∈ names sort
  · rw [if_neg (not_not.mpr hmem)] at hnames
    apply keepsPositions_of_subset
    by_cases horder : col.order ≠ .unset
    · rw [if_pos horder] at hnames
      rw [hnames]
      exact (List.filter_eq_self.mpr (fun name hname => decide_eq_true hname)).symm
    · rw [if_neg horder] at hnames
      rw [hnames]
      apply List.filter_congr
      intro name hname
      simp [hname]
  · rw [if_pos hmem] at hnames
    have hkept : (names sort).filter (· ∈ names sort ++ [col.friendlyName]) = names sort :=
      List.filter_eq_self.mpr (fun name hname => decide_eq_true (List.mem_append_left _ hname))
    have hnew : (names sort ++ [col.friendlyName]).filter (· ∉ names sort) =
        [col.friendlyName] := by
      rw [List.filter_append, List.filter_eq_nil_iff.mpr (fun name hname => by simpa using hname),
        List.nil_append, List.filter_cons_of_pos (by simpa using hmem), List.filter_nil]
    exact ⟨by rw [hnames, hkept, hnew], by rw [hnames, hnew]; exact le_rfl⟩

namespace Column

theorem sortClick_friendlyName (column : Column) (order : SortOrder) :
    (column.sortClick order).friendlyName = column.friendlyName := by
  unfold sortClick
  split_ifs <;> rfl

theorem order_of_sortClick {column : Column} {arrow : Arrow}
    (h : (column.sortClick arrow.order).order = .unset) : column.order ≠ .unset := by
  unfold sortClick at h
  split_ifs at h with hsame
  · cases arrow <;> simp_all [Arrow.order]
  · cases arrow <;> cases h

end Column

namespace TableSort

theorem mem_columns_set {columns : List Column}
    (hcolumns : (columns.map (fun c => c.friendlyName)).Nodup) {i : ℕ} {column column' : Column}
    (hget : columns[i]? = some column) (hname : column'.friendlyName = column.friendlyName)
    (c : SortColumn) : (∃ d ∈ columns.set i column', d.toSortColumn = c) ↔
      c = column'.toSortColumn ∨
        (∃ d ∈ columns, d.toSortColumn = c) ∧ c.friendlyName ≠ column'.friendlyName := by
  obtain ⟨hlt, rfl⟩ := List.getElem?_eq_some_iff.mp hget
  have hsplit : columns = columns.take i ++ columns[i] :: columns.drop (i + 1) := by
    rw [← List.drop_eq_getElem_cons hlt, List.take_append_drop]
  rw [hsplit, List.map_append, List.map_cons, List.nodup_middle, List.nodup_cons,
    ← List.map_append] at hcolumns
  rw [List.set_eq_take_append_cons_drop, if_pos hlt, hname]
  constructor
  · rintro ⟨d, hd, rfl⟩
    rcases List.mem_append.mp hd with hd | hd
    · exact .inr ⟨⟨d, List.mem_of_mem_take hd, rfl⟩, fun heq => hcolumns.1
        (heq ▸ List.mem_map_of_mem (List.mem_append_left _ hd))⟩
    · rcases List.mem_cons.mp hd with rfl | hd
      · exact .inl rfl
      · exact .inr ⟨⟨d, List.mem_of_mem_drop hd, rfl⟩, fun heq => hcolumns.1
          (heq ▸ List.mem_map_of_mem (List.mem_append_right _ hd))⟩
  · rintro (rfl | ⟨⟨d, hd, rfl⟩, hne⟩)
    · exact ⟨column', List.mem_append_right _ List.mem_cons_self, rfl⟩
    · rw [hsplit] at hd
      rcases List.mem_append.mp hd with hd | hd
      · exact ⟨d, List.mem_append_left _ hd, rfl⟩
      · rcases List.mem_cons.mp hd with rfl | hd
        · exact absurd rfl hne
        · exact ⟨d, List.mem_append_right _ (List.mem_cons_of_mem _ hd), rfl⟩

/-- The names of the columns are distinct, and the sort list agrees with the columns. -/
structure Sound (s : TableSort) : Prop where
  columns : (s.columns.map (fun c => c.friendlyName)).Nodup
  agrees : Agrees s.columns s.sort

theorem click_sound {s s' : TableSort} {click : ArrowClick} (h : s.Sound)
    (hs : s.click click = some s') : s'.Sound ∧ KeepsPositions s.sort s'.sort := by
  obtain ⟨column, hget, rfl⟩ := Option.map_eq_some_iff.mp hs
  have hname := column.sortClick_friendlyName click.arrow.order
  have hfound : (column.sortClick click.arrow.order).order = .unset →
      (column.sortClick click.arrow.order).friendlyName ∈ names s.sort := by
    intro hunset
    rw [hname]
    exact List.mem_map_of_mem ((h.agrees.mem column.toSortColumn).mpr
      ⟨Column.order_of_sortClick hunset, column, List.mem_of_getElem? hget, rfl⟩)
  refine ⟨⟨?_, ?_, fun c => ?_⟩, sortPlaylistColumns_keepsPositions _ h.agrees.nodup⟩
  · rw [map_set_eq (f := fun c : Column => c.friendlyName) hget hname]
    exact h.columns
  · rw [names_sortPlaylistColumns _ h.agrees.nodup]
    split_ifs with hin horder
    · exact h.agrees.nodup
    · exact h.agrees.nodup.filter _
    · exact List.nodup_append_comm.mp (List.nodup_cons.mpr ⟨hin, h.agrees.nodup⟩)
  · rw [mem_sortPlaylistColumns h.agrees.nodup hfound, mem_columns_set h.columns hget hname,
      h.agrees.mem]
    constructor
    · rintro (⟨rfl, horder⟩ | ⟨⟨horder, hmem⟩, hne⟩)
      · exact ⟨horder, .inl rfl⟩
      · exact ⟨horder, .inr ⟨hmem, hne⟩⟩
    · rintro ⟨horder, rfl | ⟨hmem, hne⟩⟩
      · exact .inl ⟨rfl, horder⟩
      · exact .inr ⟨⟨horder, hmem⟩, hne⟩

theorem create_sound : create.Sound := by
  refine ⟨by decide, by decide, fun c => ?_⟩
  constructor
  · intro hc
    simp only [create, defaultSort, List.mem_cons, List.not_mem_nil, or_false] at hc
    rcases hc with rfl | rfl | rfl
    · exact ⟨by decide, songColumns[4], List.getElem_mem _, rfl⟩
    · exact ⟨by decide, songColumns[0], List.getElem_mem _, rfl⟩
    · exact ⟨by decide, songColumns[1], List.getElem_mem _, rfl⟩
  · rintro ⟨horder, column, hcolumn, rfl⟩
    simp only [create, songColumns, List.mem_cons, List.not_mem_nil, or_false] at hcolumn
    rcases hcolumn with rfl | rfl | rfl | rfl | rfl
    · exact List.mem_cons_of_mem _ List.mem_cons_self
    · exact List.mem_cons_of_mem _ (List.mem_cons_of_mem _ List.mem_cons_self)
    · exact absurd rfl horder
    · exact absurd rfl horder
    · exact List.mem_cons_self

end TableSort

/-- After every sequence of clicks the sort list agrees with the columns, and each further click
keeps the positions of the columns that stay. -/
theorem clicks_agree {l : List ArrowClick} {s : TableSort}
    (h : Run (Fires TableSort.click) TableSort.create l s) :
    Agrees s.columns s.sort ∧ ∀ click s', s.click click = some s' →
      Agrees s'.columns s'.sort ∧ KeepsPositions s.sort s'.sort := by
  have hsound : s.Sound :=
    h.invariant TableSort.create_sound (fun _ _ _ ht hs => (TableSort.click_sound ht hs).1)
  refine ⟨hsound.agrees, fun click s' hs => ?_⟩
  obtain ⟨hsound', hkeeps⟩ := TableSort.click_sound hsound hs
  exact ⟨hsound'.agrees, hkeeps⟩

/-- The title is sorted by, and the albums no longer. -/
theorem clicks_agree_title : ∃ s : TableSort,
    names s.sort = [text "disc_no", text "track_no", text "song_title"] ∧
      Agrees s.columns s.sort := by
  have hexecute : (execute TableSort.click TableSort.create [⟨2, .up⟩, ⟨4, .up⟩]).map
      (fun s => names s.sort) = some [text "disc_no", text "track_no", text "song_title"] := by
    decide
  obtain ⟨s, hs, hnames⟩ := Option.map_eq_some_iff.mp hexecute
  exact ⟨s, hnames, (clicks_agree (run_of_execute hs)).1⟩

end ModMp
