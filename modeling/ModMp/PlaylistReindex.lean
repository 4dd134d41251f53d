import ModMp.PairOff
import ModMp.UiTable

/-!
# Table indices after a sort

`updateTableIndexs` gives each song the table index of the first object with its identifier, and
takes this object out of the list. The inner loop goes through the keys of the list and returns at
the first removal. A song without an object is logged.
-/

namespace ModMp
open PairOff

variable {ρ κ : Type} [DecidableEq κ] (songId : ρ → κ)

/-- The `song_id` of an object. -/
def elemId (elem : DataElem ρ) : κ := songId elem.row

/-- The inner loop over the remaining keys: the song and the list after a match. -/
def reindexSong (song : DataElem ρ) (newTindexs : List (DataElem ρ)) :
    List ℕ → Option (DataElem ρ × List (DataElem ρ))
  | [] => none
  | i :: keys =>
      match newTindexs[i]? with
      | some nsong =>
          if elemId songId nsong = elemId songId song then
            some ({ song with tableIndex := nsong.tableIndex }, newTindexs.eraseIdx i)
          else reindexSong song newTindexs keys
      | none => reindexSong song newTindexs keys

/-- The songs, the list and the number of errors after the loop over the songs. -/
structure Reindexed (ρ : Type) where
  songs : List (DataElem ρ)
  newTindexs : List (DataElem ρ)
  errors : ℕ

def updateTableIndexs : List (DataElem ρ) → List (DataElem ρ) → Reindexed ρ
  | [], newTindexs => ⟨[], newTindexs, 0⟩
  | song :: songs, newTindexs =>
      match reindexSong songId song newTindexs (List.range newTindexs.length) with
      | some (song, newTindexs) =>
          let r := updateTableIndexs songs newTindexs
          { r with songs := song :: r.songs }
      | none =>
          let r := updateTableIndexs songs newTindexs
          { r with songs := song :: r.songs, errors := r.errors + 1 }

/-- The song with the table index of an object. -/
def DataElem.reindex (song nsong : DataElem ρ) : DataElem ρ :=
  { song with tableIndex := nsong.tableIndex }

theorem reindexSong_from (song : DataElem ρ) {newTindexs : List (DataElem ρ)}
    (before : List (DataElem ρ)) {rest : List (DataElem ρ)} (hsplit : newTindexs = before ++ rest) :
    reindexSong songId song newTindexs (List.range' before.length rest.length) =
      (rest.find? (elemId songId · = elemId songId song)).map (fun nsong =>
        (song.reindex nsong, before ++ rest.eraseP (elemId songId · = elemId songId song))) := by
  induction rest generalizing before with
  | nil => rfl
  | cons n rest ih =>
      have hget : newTindexs[before.length]? = some n := by
        rw [hsplit, List.getElem?_append_right le_rfl, Nat.sub_self, List.getElem?_cons_zero]
      rw [List.length_cons, List.range'_succ, reindexSong, hget]
      dsimp only
      by_cases hid : elemId songId n = elemId songId song
      · have hpos : decide (elemId songId n = elemId songId song) = true := decide_eq_true hid
        rw [if_pos hid,
          List.find?_cons_of_pos (p := (elemId songId · = elemId songId song)) hpos,
          List.eraseP_cons_of_pos (p := (elemId songId · = elemId songId song)) hpos, hsplit,
          List.eraseIdx_append_of_length_le le_rfl, Nat.sub_self, List.eraseIdx_cons_zero]
        rfl
      · have hneg : ¬ (decide (elemId songId n = elemId songId song) = true) := by simpa using hid
        have hnext := ih (before ++ [n]) (by rw [hsplit, List.append_cons])
        rw [List.length_append, List.length_singleton] at hnext
        rw [if_neg hid, hnext,
          List.find?_cons_of_neg (p := (elemId songId · = elemId songId song)) hneg,
          List.eraseP_cons_of_neg (p := (elemId songId · = elemId songId song)) hneg]
        congr 1
        funext nsong
        rw [List.append_assoc]
        rfl

theorem reindexSong_eq (song : DataElem ρ) (newTindexs : List (DataElem ρ)) :
    reindexSong songId song newTindexs (List.range newTindexs.length) =
      (newTindexs.find? (elemId songId · = elemId songId song)).map (fun nsong =>
        (song.reindex nsong, newTindexs.eraseP (elemId songId · = elemId songId song))) := by
  rw [List.range_eq_range']
  exact reindexSong_from songId song [] rfl

/-- When every song finds an object, the songs pair off with the objects. -/
theorem updateTableIndexs_eq {songs newTindexs taken rest : List (DataElem ρ)}
    (h : takeFirst (elemId songId) (songs.map (elemId songId)) newTindexs =
      (taken.map some, rest)) :
    updateTableIndexs songId songs newTindexs =
      ⟨List.zipWith DataElem.reindex songs taken, rest, 0⟩ := by
  induction songs generalizing newTindexs taken with
  | nil =>
      rw [List.map_nil, takeFirst, Prod.mk.injEq] at h
      obtain ⟨htaken, rfl⟩ := h
      rw [updateTableIndexs, List.zipWith_nil_left]
  | cons song songs ih =>
      rw [List.map_cons, takeFirst, Prod.mk.injEq] at h
      obtain ⟨htaken, hrest⟩ := h
      cases taken with
      | nil => cases htaken
      | cons nsong taken =>
          rw [List.map_cons, List.cons.injEq] at htaken
          rw [updateTableIndexs, reindexSong_eq, htaken.1, Option.map_some]
          dsimp only
          rw [ih (Prod.ext htaken.2 hrest)]
          rfl

section Zip
variable {songs taken : List (DataElem ρ)}

omit [DecidableEq κ] in
theorem zipWith_reindex
    (h : taken.map (elemId songId) = songs.map (elemId songId)) :
    (List.zipWith DataElem.reindex songs taken).map (fun song => (song.row, song.shuffledIndex)) =
        songs.map (fun song => (song.row, song.shuffledIndex)) ∧
      (List.zipWith DataElem.reindex songs taken).map DataElem.tableIndex =
        taken.map DataElem.tableIndex := by
  induction songs generalizing taken with
  | nil =>
      rw [List.map_eq_nil_iff.mp h]
      exact ⟨rfl, rfl⟩
  | cons song songs ih =>
      cases taken with
      | nil => cases h
      | cons nsong taken =>
          rw [List.map_cons, List.map_cons, List.cons.injEq] at h
          obtain ⟨hkept, hindex⟩ := ih h.2
          rw [List.zipWith_cons_cons, List.map_cons, List.map_cons, List.map_cons, List.map_cons,
            hkept, hindex]
          exact ⟨rfl, rfl⟩

theorem filter_zipWith_reindex
    (h : taken.map (elemId songId) = songs.map (elemId songId)) (id : κ) :
    ((List.zipWith DataElem.reindex songs taken).filter (elemId songId · = id)).map
        DataElem.tableIndex =
      (taken.filter (elemId songId · = id)).map DataElem.tableIndex := by
  induction songs generalizing taken with
  | nil =>
      rw [List.map_eq_nil_iff.mp h]
      rfl
  | cons song songs ih =>
      cases taken with
      | nil => cases h
      | cons nsong taken =>
          rw [List.map_cons, List.map_cons, List.cons.injEq] at h
          rw [List.zipWith_cons_cons]
          by_cases hid : elemId songId song = id
          · rw [filter_cons_of_key (elemId songId)
              (show elemId songId (song.reindex nsong) = id from hid),
              filter_cons_of_key (elemId songId) (h.1.trans hid), List.map_cons,
              List.map_cons, ih h.2]
            rfl
          · rw [filter_cons_of_ne (elemId songId)
              (show elemId songId (song.reindex nsong) ≠ id from hid),
              filter_cons_of_ne (elemId songId) (fun heq => hid (h.1.symm.trans heq)),
              ih h.2]

end Zip

/-- The songs with an identifier get the table indices of the first objects with it, in order. No
index is given twice, no song is without one, and the objects that gave none are left in order. -/
theorem updateTableIndexs_pairs (songs newTindexs : List (DataElem ρ))
    (hids : ∀ id, (songs.map (elemId songId)).count id ≤
      (newTindexs.map (elemId songId)).count id)
    (hdistinct : (newTindexs.map DataElem.tableIndex).Nodup) :
    ∃ r, updateTableIndexs songId songs newTindexs = r ∧
      r.songs.map (fun song => (song.row, song.shuffledIndex)) =
        songs.map (fun song => (song.row, song.shuffledIndex)) ∧
      (∀ id, (r.songs.filter (elemId songId · = id)).map DataElem.tableIndex =
        ((newTindexs.filter (elemId songId · = id)).map DataElem.tableIndex).take
          ((songs.map (elemId songId)).count id)) ∧
      (r.songs.map DataElem.tableIndex).Nodup ∧ r.errors = 0 ∧
      r.newTindexs =
        newTindexs.filter (fun n => n.tableIndex ∉ r.songs.map DataElem.tableIndex) := by
  obtain ⟨taken, rest, htake, hpaired⟩ :=
    takeFirst_paired (elemId songId) hids
  obtain ⟨hkept, hindex⟩ := zipWith_reindex songId hpaired.keys
  refine ⟨_, updateTableIndexs_eq songId htake, hkept, fun id => ?_, ?_, rfl, ?_⟩
  · rw [filter_zipWith_reindex songId hpaired.keys, hpaired.order, List.map_take]
  · have hnodup := (hpaired.perm.map DataElem.tableIndex).nodup_iff.mpr hdistinct
    rw [List.map_append] at hnodup
    rw [hindex]
    exact hnodup.of_append_left
  · dsimp only
    rw [hindex]
    exact hpaired.rest_eq hdistinct

/-- Three songs, one of them twice, and five objects. -/
theorem updateTableIndexs_pairs_three : ∃ r : Reindexed ℕ, r.errors = 0 ∧
    r.songs.map DataElem.tableIndex = [some 0, some 2, some 3] ∧
    r.newTindexs.map DataElem.tableIndex = [some 1, some 4] := by
  obtain ⟨r, hr, -, -, -, herrors, -⟩ := updateTableIndexs_pairs (id : ℕ → ℕ)
    [⟨7, none, none⟩, ⟨5, none, none⟩, ⟨7, none, none⟩]
    [⟨7, some 0, none⟩, ⟨9, some 1, none⟩, ⟨5, some 2, none⟩, ⟨7, some 3, none⟩, ⟨7, some 4, none⟩]
    (fun id => List.Sublist.count_le id (by decide)) (by decide)
  subst hr
  exact ⟨_, herrors, by decide, by decide⟩

end ModMp
