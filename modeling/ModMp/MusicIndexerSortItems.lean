import ModMp.CStringSearch
import ModMp.MusicIndexerSorting

/-!
# Items to sort by

An item is a column's friendly name, with a direction in front or without one. A list of items is
written with commas between them. What is read back from it are the items, and a prefix of the list
ends with a piece of one of them.
-/

namespace ModMp.MusicIndexer
open CLib Delimited

inductive Direction
  | unset
  | ascending
  | descending
  deriving DecidableEq

def Direction.mark : Direction → Bytes
  | .unset => []
  | .ascending => [plusByte]
  | .descending => [minusByte]

def Direction.suffix : Direction → CString
  | .unset => CString.ofAscii ""
  | .ascending => CString.ofAscii " ASC"
  | .descending => CString.ofAscii " DESC"

/-- A column's friendly name, with a direction in front or without one. -/
structure SortItem {lib : Library} (query : DbQuery lib.strnatcasecmp) where
  direction : Direction
  name : CString
  column : ColumnTable
  found : query.findColumn name = some column
  comma_free : commaByte ∉ name.bytes
  unmarked : direction = .unset →
    name.bytes ≠ [] ∧ name.bytes.head? ≠ some plusByte ∧ name.bytes.head? ≠ some minusByte

namespace SortItem
variable {lib : Library} {query : DbQuery lib.strnatcasecmp} (item : SortItem query)

def text : Bytes := item.direction.mark ++ item.name.bytes

def term : CString := columnText item.column item.direction.suffix

theorem text_ne_nil : item.text ≠ [] := by
  unfold text
  cases hd : item.direction with
  | unset => exact (item.unmarked hd).1
  | ascending => exact List.cons_ne_nil _ _
  | descending => exact List.cons_ne_nil _ _

theorem zero_notMem_text : 0 ∉ item.text := by
  unfold text
  rw [List.mem_append, not_or]
  refine ⟨?_, item.name.nul_free⟩
  cases item.direction <;> decide

theorem comma_notMem_text : commaByte ∉ item.text := by
  unfold text
  rw [List.mem_append, not_or]
  refine ⟨?_, item.comma_free⟩
  cases item.direction <;> decide

theorem modifier_text {s : CString} (h : s.bytes = item.text) :
    modifier s = (item.direction.suffix, item.name) := by
  have htail : ∀ b rest, s.bytes = b :: rest → rest = item.name.bytes → tail s = item.name := by
    intro b rest hb hrest
    apply CString.eq_of_bytes
    change s.bytes.tail = item.name.bytes
    rw [hb, List.tail_cons, hrest]
  unfold text at h
  unfold modifier
  cases hd : item.direction with
  | unset =>
      have hs : s = item.name := CString.eq_of_bytes (by rw [h, hd]; rfl)
      obtain ⟨-, hplus, hminus⟩ := item.unmarked hd
      rw [hs, if_neg hplus, if_neg hminus]
      rfl
  | ascending =>
      rw [hd] at h
      rw [htail _ _ h rfl, h, if_pos (by rfl)]
      rfl
  | descending =>
      rw [hd] at h
      have hplus : (Direction.descending.mark ++ item.name.bytes).head? ≠ some plusByte :=
        show some minusByte ≠ some plusByte by decide
      rw [htail _ _ h rfl, h, if_neg hplus, if_pos (by rfl)]
      rfl

theorem sortTerm_text {s : CString} (h : s.bytes = item.text) :
    sortTerm query s = some item.term := by
  rw [sortTerm, item.modifier_text h, item.found]
  rfl

theorem sortTerms_texts (items : List (SortItem query)) :
    List.Forall₂ (fun s t => sortTerm query s = some t)
      ((items.map text).map CString.ofBytes) (items.map term) := by
  rw [List.map_map, List.forall₂_map_left_iff, List.forall₂_map_right_iff, List.forall₂_same]
  intro item _
  exact item.sortTerm_text (CString.ofBytes_bytes item.zero_notMem_text)

theorem filter_texts (items : List (SortItem query)) :
    (items.map text).filter (fun w => !w.isEmpty) = items.map text := by
  apply List.filter_eq_self.mpr
  intro w hw
  obtain ⟨item, -, rfl⟩ := List.mem_map.mp hw
  simp [item.text_ne_nil]

theorem comma_notMem_texts {items : List (SortItem query)} {w : Bytes}
    (hw : w ∈ items.map text) : commaByte ∉ w := by
  obtain ⟨item, -, rfl⟩ := List.mem_map.mp hw
  exact item.comma_notMem_text

theorem pieces_texts (items : List (SortItem query)) :
    pieces commaByte ([commaByte].intercalate (items.map text)) = items.map text := by
  rw [pieces_intercalate (fun w hw => comma_notMem_texts hw), filter_texts]

theorem pieces_cut (items : List (SortItem query)) {q : Bytes} (hq : commaByte ∉ q) :
    pieces commaByte ([commaByte].intercalate (items.map text ++ [q])) =
      items.map text ++ if q = [] then [] else [q] := by
  have hwords : ∀ w ∈ items.map text ++ [q], commaByte ∉ w := by
    intro w hw
    rcases List.mem_append.mp hw with hw | hw
    · exact comma_notMem_texts hw
    · rwa [List.mem_singleton.mp hw]
  rw [pieces_intercalate hwords, List.filter_append, filter_texts]
  congr 1
  cases q <;> rfl

def sortList (items : List (SortItem query)) : CString :=
  commaJoined ((items.map text).map CString.ofBytes)

theorem sortList_bytes (items : List (SortItem query)) :
    (sortList items).bytes = [commaByte].intercalate (items.map text) := by
  have htexts : ((items.map text).map CString.ofBytes).map CString.bytes =
      items.map text := by
    rw [List.map_map, List.map_congr_left, List.map_id]
    intro w hw
    obtain ⟨item, -, rfl⟩ := List.mem_map.mp hw
    exact CString.ofBytes_bytes item.zero_notMem_text
  rw [sortList, commaJoined_bytes, htexts]

end SortItem

end ModMp.MusicIndexer
