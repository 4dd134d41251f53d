import ModMp.Browser
import ModMp.MusicIndexerOutcome
import ModMp.MusicQueryWords

/-!
# What the server makes of the requests of the client

Most requests have lists of identifiers, texts to search for, a sort list and a limit. The server
takes the words of the path in pairs; a list of two or more identifiers needs a new text, and the
parameters have no pool for it.
-/

namespace ModMp
open Segments MusicIndexer CLib

/-- The characters of a text as bytes. -/
def textString (t : Text) : CString := CString.ofBytes (t.map UInt16.toUInt8)

def wordPair (field : Text × Text) : CString × CString :=
  (textString field.1, textString field.2)

section Words

theorem pathWords_setUrl (hostname : Word) (count : ℕ) (p : QueryParameters)
    (h : ∀ field ∈ setFields p.sortBy.written count p, ClearText field.2) :
    pathWords (setUrl hostname count p) =
      text "music" :: p.type.letters :: unpair (setFields p.sortBy.written count p) := by
  have hwords : ∀ w ∈ [[], hostname.letters, text "music", p.type.letters], slash ∉ w := by
    have hclear : ∀ w : Word, slash ∉ w.letters := fun w h => (w.clear slash h).1 rfl
    simp only [List.forall_mem_cons]
    exact ⟨List.not_mem_nil, hclear hostname, by decide, hclear p.type, List.forall_mem_nil _⟩
  have hfields : ∀ w ∈ unpair (setFields p.sortBy.written count p), Clean endsPath slash w := by
    intro w hw
    obtain ⟨field, hfield, rfl | rfl⟩ := mem_unpair.mp hw
    · exact clear_keys p.sortBy.clear_key count p field hfield
    · exact h field hfield
  rw [pathWords, setUrl_eq, fieldsText,
    cut_append_join (by decide) (urlHead_stopFree hostname p) hfields, urlHead_eq,
    splitOn_append_join hwords, List.splitOn_eq_singleton (by decide)]
  rfl

theorem map_unpair {β γ : Type} (f : β → γ) (l : List (β × β)) :
    (unpair l).map f = unpair (l.map (Prod.map f f)) := by
  rw [unpair, unpair, List.map_flatMap, List.flatMap_map]
  rfl

theorem digit_toUInt8 {d : Char} (hd : d.isDigit) :
    isDigit (unit d).toUInt8 = true ∧ (unit d).toUInt8 ≠ 0 ∧ (unit d).toUInt8 ≠ commaByte := by
  have hrange : 48 ≤ d.toNat ∧ d.toNat ≤ 57 := by
    simpa [Char.isDigit, UInt32.le_iff_toNat_le] using hd
  obtain ⟨hlo, hhi⟩ := hrange
  unfold unit
  generalize d.toNat = n at hlo hhi
  interval_cases n <;> decide

theorem decimal_toUInt8 (n : ℕ) : ∀ b ∈ (decimal n).map UInt16.toUInt8,
    isDigit b = true ∧ b ≠ 0 ∧ b ≠ commaByte := by
  intro b hb
  obtain ⟨c, hc, rfl⟩ := List.mem_map.mp hb
  obtain ⟨d, hd, rfl⟩ := List.mem_map.mp hc
  exact digit_toUInt8 (Nat.isDigit_of_mem_toDigits (by norm_num) (by norm_num) hd)

theorem idText_eq (id : ℕ) (ids : List ℕ) :
    idText (id :: ids) = decimal id ++ ids.flatMap (fun id => comma ++ decimal id) := by
  rw [idText, List.map_cons, intercalate_cons, List.flatMap_map]

theorem idText_toUInt8 (ids : List ℕ) : ∀ b ∈ (idText ids).map UInt16.toUInt8,
    (isDigit b || b == commaByte) = true ∧ b ≠ 0 := by
  have hnumber : ∀ n, ∀ b ∈ (decimal n).map UInt16.toUInt8,
      (isDigit b || b == commaByte) = true ∧ b ≠ 0 := by
    intro n b hb
    obtain ⟨hdigit, hzero, -⟩ := decimal_toUInt8 n b hb
    exact ⟨by rw [hdigit, Bool.true_or], hzero⟩
  cases ids with
  | nil => exact fun b hb => absurd hb List.not_mem_nil
  | cons id ids =>
      rw [idText_eq, List.map_append, List.forall_mem_append, List.map_flatMap]
      refine ⟨hnumber id, fun b hb => ?_⟩
      obtain ⟨n, -, hb⟩ := List.mem_flatMap.mp hb
      rw [List.map_append] at hb
      rcases List.mem_append.mp hb with hb | hb
      · rw [List.mem_singleton.mp hb]
        decide
      · exact hnumber n b hb

theorem textString_idText (ids : List ℕ) :
    (textString (idText ids)).bytes = (idText ids).map UInt16.toUInt8 := by
  apply List.takeWhile_eq_self_iff.mpr
  intro b hb
  exact bne_iff_ne.mpr (idText_toUInt8 ids b hb).2

theorem comma_mem_idText_iff (ids : List ℕ) :
    commaByte ∈ (textString (idText ids)).bytes ↔ 2 ≤ ids.length := by
  rw [textString_idText]
  match ids with
  | [] => exact iff_of_false List.not_mem_nil (by decide)
  | [id] =>
      refine iff_of_false (fun hmem => ?_) (by simp)
      rw [idText_eq, List.flatMap_nil, List.append_nil] at hmem
      exact (decimal_toUInt8 id _ hmem).2.2 rfl
  | id :: second :: ids =>
      refine iff_of_true ?_ (by simp)
      rw [idText_eq, List.map_append, List.flatMap_cons, List.map_append, List.map_append]
      exact List.mem_append_right _ (List.mem_append_left _ (List.mem_append_left _
        (List.mem_singleton.mpr rfl)))

theorem clear_idText (ids : List ℕ) : ClearText (idText ids) := by
  cases ids with
  | nil => exact fun c hc => absurd hc List.not_mem_nil
  | cons id ids =>
      rw [idText_eq]
      exact Clean.append (clear_decimal id) (Clean.flatMap (fun id _ =>
        Clean.append (by decide) (clear_decimal id)))

end Words

def searchFields (p : QueryParameters) : List (Text × Text) :=
  textField "song_title" p.songTitle ++ textField "album_name" p.albumName ++
    textField "artist_name" p.artistName

/-- Only identifiers, texts to search for, a sort list and a limit are set, and nothing in them
cuts the URL. -/
structure Simple (p : QueryParameters) : Prop where
  sourceId : p.sourceId = []
  types : p.sourceType = none ∧ p.outputType = none
  texts : ∀ field ∈ searchFields p, ClearText field.2
  sortBy : ∀ field ∈ p.sortBy.written, ClearText field.2
  numResults : 0 < p.numResults

def idKey (kind : PaneKind) : String := kind.name ++ "_id"

/-- The kinds in the order of `setUrl`. -/
def urlKinds : List PaneKind := [.album, .artist, .song]

def idPairs (p : QueryParameters) (kind : PaneKind) : List (CString × CString) :=
  if p.ids kind = [] then []
  else [(CString.ofAscii (idKey kind), textString (idText (p.ids kind)))]

def textPairs (p : QueryParameters) : List (CString × CString) := (searchFields p).map wordPair

/-- The values of `sort_by`, of which there is one at most. -/
def sortValues (p : QueryParameters) : List CString :=
  p.sortBy.written.map (fun field => textString field.2)

def clausePairs (p : QueryParameters) (count : ℕ) : List (CString × CString) :=
  (sortValues p).map (fun value => (CString.ofAscii "sort_by", value)) ++
    [(CString.ofAscii "limit", textString (decimal p.numResults))] ++
    (if 0 < count then [(CString.ofAscii "offset", textString (decimal (count * p.numResults)))]
      else [])

def requestPairs (p : QueryParameters) (count : ℕ) : List (CString × CString) :=
  urlKinds.flatMap (idPairs p) ++ textPairs p ++ clausePairs p count

theorem SortBy.written_key (s : SortBy) : ∀ field ∈ s.written, field.1 = text "sort_by" := by
  intro field hfield
  cases s with
  | null => cases hfield
  | columns cols =>
      rw [SortBy.written] at hfield
      · rw [List.mem_singleton.mp (List.mem_ite_nil_right.mp hfield).2]
      · exact nofun
  | string t => rw [List.mem_singleton.mp (List.mem_ite_nil_right.mp hfield).2]

namespace Simple
variable {p : QueryParameters}

theorem setFields_eq (h : Simple p) (count : ℕ) : setFields p.sortBy.written count p =
    urlKinds.flatMap (fun kind => idField (idKey kind) (p.ids kind)) ++ searchFields p ++
      (p.sortBy.written ++ limitFields count p) := by
  have hids : urlKinds.flatMap (fun kind => idField (idKey kind) (p.ids kind)) =
      idField "album_id" p.albumId ++ (idField "artist_id" p.artistId ++
        idField "song_id" p.songId) := by
    simp [urlKinds, idKey, PaneKind.name, QueryParameters.ids]
  rw [hids, setFields, fieldsBefore, typeFields, searchFields, h.sourceId, h.types.1, h.types.2]
  simp [idField, typeField]

theorem clear (h : Simple p) (count : ℕ) :
    ∀ field ∈ setFields p.sortBy.written count p, ClearText field.2 := by
  have hif : ∀ {P : Prop} [Decidable P] {key : Text} (n : ℕ),
      ∀ field ∈ (if P then [(key, decimal n)] else []), ClearText field.2 := by
    intro P _ key n field hfield
    rw [List.mem_singleton.mp (List.mem_ite_nil_right.mp hfield).2]
    exact clear_decimal n
  rw [h.setFields_eq]
  unfold limitFields
  simp only [List.forall_mem_append]
  refine ⟨⟨fun field hfield => ?_, h.texts⟩, h.sortBy, hif _, hif _⟩
  obtain ⟨kind, -, hfield⟩ := List.mem_flatMap.mp hfield
  rw [List.mem_singleton.mp (List.mem_ite_nil_right.mp hfield).2]
  exact clear_idText _

theorem wordPair_setFields (h : Simple p) (count : ℕ) :
    (setFields p.sortBy.written count p).map wordPair = requestPairs p count := by
  have hids : ∀ kind, (idField (idKey kind) (p.ids kind)).map wordPair = idPairs p kind := by
    intro kind
    have hkey : textString (text (idKey kind)) = CString.ofAscii (idKey kind) := by
      cases kind <;> rfl
    rw [idField, idPairs]
    cases p.ids kind with
    | nil => rfl
    | cons id ids =>
        rw [if_pos (List.length_pos_iff.mpr (List.cons_ne_nil _ _)),
          if_neg (List.cons_ne_nil _ _), List.map_singleton, wordPair,
          hkey]
  have hsort : p.sortBy.written.map wordPair =
      (sortValues p).map (fun value => (CString.ofAscii "sort_by", value)) := by
    rw [sortValues, List.map_map]
    refine List.map_congr_left fun field hfield => ?_
    rw [wordPair, p.sortBy.written_key field hfield]
    rfl
  have hoffset : (0 < p.numResults ∧ 0 < count * p.numResults) ↔ 0 < count := by
    rw [and_iff_right h.numResults]
    exact Nat.mul_pos_iff_of_pos_right h.numResults
  have hlimit : (limitFields count p).map wordPair =
      [(CString.ofAscii "limit", textString (decimal p.numResults))] ++
        (if 0 < count then
          [(CString.ofAscii "offset", textString (decimal (count * p.numResults)))] else []) := by
    rw [limitFields, if_pos h.numResults]
    simp only [hoffset]
    split_ifs <;> rfl
  rw [h.setFields_eq, List.map_append, List.map_append, List.map_append, List.map_flatMap, hsort,
    hlimit, requestPairs, textPairs, clausePairs]
  simp only [hids, List.append_assoc]

theorem pairs_words (h : Simple p) {hostname : Word} {count : ℕ} {words : List CString}
    (hwords : words = (pathWords (setUrl hostname count p)).map textString) :
    pairs (words.drop 2) = requestPairs p count ∧ 4 ≤ words.length := by
  have hdrop : words.drop 2 = unpair (requestPairs p count) := by
    rw [hwords, pathWords_setUrl hostname count p (h.clear count), List.map_cons,
      List.map_cons, map_unpair, ← h.wordPair_setFields]
    rfl
  refine ⟨by rw [hdrop, pairs_unpair], ?_⟩
  by_contra hlength
  have hshort : (words.drop 2).length < 2 := by
    rw [List.length_drop]
    omega
  have hnil := pairs_of_short hshort
  rw [hdrop, pairs_unpair] at hnil
  simp [requestPairs, clausePairs] at hnil

end Simple

section Server
variable {lib : Library} (query : MusicIndexer.DbQuery lib.strnatcasecmp)
  (column : PaneKind → ColumnTable)

/-- The server knows the keys that the client writes. -/
structure ServesKeys : Prop where
  ids : ∀ kind, treatment lib query (CString.ofAscii (idKey kind)) = .condition (column kind)
  numbers : ∀ kind, (column kind).type = .int ∨ (column kind).type = .bigint
  sortBy : treatment lib query (CString.ofAscii "sort_by") = .clause .orderBy
  limit : treatment lib query (CString.ofAscii "limit") = .clause .limit
  offset : treatment lib query (CString.ofAscii "offset") = .clause .offset

variable {query column} {p : QueryParameters}

def idCondition (column : PaneKind → ColumnTable) (kind : PaneKind) (id : ℕ) :
    QueryWhereCondition :=
  ⟨(column kind).toDbTableColumn, .equal, textString (decimal id)⟩

/-- What the server takes from a request without texts to search for: the identifiers, the limit
and the offset, a list of columns to sort by, and new errors. -/
structure RequestRead (column : PaneKind → ColumnTable) (p : QueryParameters) (count : ℕ)
    (terms : List CString) (errors : List ErrorCall) (q q' : MusicIndexer.MusicQuery lib) :
    Prop where
  parameters : ∃ r, q'.dbQueryParameters = some r ∧
    r.whereConditions =
      urlKinds.flatMap (fun kind => (p.ids kind).map (idCondition column kind)) ∧
    (r.sqlClauses .limit).value = some (textString (decimal p.numResults)) ∧
    (r.sqlClauses .offset).value =
      (if 0 < count then some (textString (decimal (count * p.numResults))) else none) ∧
    (r.sqlClauses .orderBy).value = listText terms
  errors : q'.errorMessages = addErrors q.errorMessages errors

namespace ServesKeys

theorem admitted (h : ServesKeys query column) (kind : PaneKind) (ids : List ℕ) :
    Admitted (column kind).toDbTableColumn (textString (idText ids)) := by
  apply List.all_eq_true.mpr
  intro b hb
  rw [textString_idText] at hb
  rcases h.numbers kind with htype | htype
  · rw [htype]
    exact (idText_toUInt8 ids b hb).1
  · rw [htype]
    exact (idText_toUInt8 ids b hb).1

/-- A new text is needed from the second identifier on. -/
theorem concatenates_iff (h : ServesKeys query column) (kind : PaneKind) (ids : List ℕ) :
    concatenates (column kind).toDbTableColumn (textString (idText ids)) = true ↔
      2 ≤ ids.length := by
  rw [← comma_mem_idText_iff]
  have hall := h.admitted kind ids
  unfold Admitted at hall
  unfold concatenates
  rcases h.numbers kind with htype | htype
  · rw [htype] at hall ⊢
    exact ⟨fun hand => List.contains_iff_mem.mp (Bool.and_eq_true_iff.mp hand).2,
      fun hmem => Bool.and_eq_true_iff.mpr ⟨hall, List.contains_iff_mem.mpr hmem⟩⟩
  · rw [htype] at hall ⊢
    exact ⟨fun hand => List.contains_iff_mem.mp (Bool.and_eq_true_iff.mp hand).2,
      fun hmem => Bool.and_eq_true_iff.mpr ⟨hall, List.contains_iff_mem.mpr hmem⟩⟩

theorem whereEntry_single (h : ServesKeys query column) (kind : PaneKind) (id : ℕ) :
    whereEntry (column kind).toDbTableColumn (textString (idText [id])) =
      idCondition column kind id := by
  have hcomma : commaByte ∉ (textString (idText [id])).bytes := by
    rw [comma_mem_idText_iff]
    exact Nat.lt_irrefl 1
  have htext : idText [id] = decimal id := by
    rw [idText_eq, List.flatMap_nil, List.append_nil]
  rw [whereEntry, idCondition, operatorOf, storedText]
  rcases h.numbers kind with htype | htype
  · rw [htype]
    dsimp only
    rw [if_neg hcomma, if_neg hcomma, htext]
  · rw [htype]
    dsimp only
    rw [if_neg hcomma, if_neg hcomma, htext]

theorem clausePairs_clause (h : ServesKeys query column) (count : ℕ) :
    ∀ pair ∈ clausePairs p count, ∃ clause, treatment lib query pair.1 = .clause clause := by
  intro pair hpair
  rcases List.mem_append.mp hpair with hpair | hpair
  · rcases List.mem_append.mp hpair with hpair | hpair
    · obtain ⟨value, -, rfl⟩ := List.mem_map.mp hpair
      exact ⟨_, h.sortBy⟩
    · rw [List.mem_singleton.mp hpair]
      exact ⟨_, h.limit⟩
  · rw [List.mem_singleton.mp (List.mem_ite_nil_right.mp hpair).2]
    exact ⟨_, h.offset⟩

theorem known_keys (h : ServesKeys query column)
    (htexts : ∀ pair ∈ textPairs p, treatment lib query pair.1 ≠ .unknown) (count : ℕ) :
    ∀ pair ∈ requestPairs p count, treatment lib query pair.1 ≠ .unknown := by
  intro pair hpair hunknown
  rcases List.mem_append.mp hpair with hpair | hpair
  · rcases List.mem_append.mp hpair with hpair | hpair
    · obtain ⟨kind, -, hpair⟩ := List.mem_flatMap.mp hpair
      rw [idPairs] at hpair
      split_ifs at hpair
      · cases hpair
      · rw [List.mem_singleton.mp hpair, h.ids] at hunknown
        cases hunknown
    · exact htexts pair hpair hunknown
  · obtain ⟨clause, hclause⟩ := h.clausePairs_clause count pair hpair
    rw [hclause] at hunknown
    cases hunknown

/-- Without texts the server goes on to the end exactly when no list has two identifiers. -/
theorem proceeds_iff (h : ServesKeys query column) (htexts : textPairs p = []) (count : ℕ) :
    (∀ pair ∈ requestPairs p count, proceeds query pair = true) ↔
      ∀ kind, (p.ids kind).length ≤ 1 := by
  have hids : ∀ kind, (∀ pair ∈ idPairs p kind, proceeds query pair = true) ↔
      (p.ids kind).length ≤ 1 := by
    intro kind
    rw [idPairs]
    split_ifs with hnil
    · simp [hnil]
    · rw [List.forall_mem_singleton, proceeds, h.ids, Bool.not_eq_true', ← Bool.not_eq_true,
        h.concatenates_iff, not_le, Nat.lt_succ_iff]
  have hclauses : ∀ pair ∈ clausePairs p count, proceeds query pair = true := by
    intro pair hpair
    obtain ⟨clause, hclause⟩ := h.clausePairs_clause count pair hpair
    rw [proceeds, hclause]
  have hkinds : ∀ kind, kind ∈ urlKinds := fun kind => by cases kind <;> decide
  rw [requestPairs, htexts, List.append_nil, List.forall_mem_append, and_iff_left hclauses]
  constructor
  · intro hall kind
    exact (hids kind).mp fun pair hpair =>
      hall pair (List.mem_flatMap.mpr ⟨kind, hkinds kind, hpair⟩)
  · intro hle pair hpair
    obtain ⟨kind, -, hpair⟩ := List.mem_flatMap.mp hpair
    exact (hids kind).mpr (hle kind) pair hpair

theorem added_idPairs (h : ServesKeys query column) {kind : PaneKind}
    (hle : (p.ids kind).length ≤ 1) :
    (idPairs p kind).filterMap (addedCondition query) =
        (p.ids kind).map (idCondition column kind) ∧
      (idPairs p kind).flatMap (addedErrors query) = [] ∧
      ∀ clause, (idPairs p kind).filterMap (givenValue query clause) = [] := by
  rw [idPairs]
  match hids : p.ids kind, hle with
  | [], _ => exact ⟨rfl, rfl, fun _ => rfl⟩
  | [id], _ =>
      have hcondition : addedCondition query (CString.ofAscii (idKey kind),
          textString (idText [id])) = some (idCondition column kind id) := by
        rw [addedCondition, h.ids]
        dsimp only
        rw [if_pos (h.admitted kind [id]), h.whereEntry_single]
      have herrors : addedErrors query (CString.ofAscii (idKey kind),
          textString (idText [id])) = [] := by
        rw [addedErrors, h.ids]
        exact if_pos (h.admitted kind [id])
      have hvalue : ∀ clause, givenValue query clause (CString.ofAscii (idKey kind),
          textString (idText [id])) = none := by
        intro clause
        rw [givenValue, h.ids]
      rw [if_neg (List.cons_ne_nil _ _)]
      refine ⟨?_, ?_, fun clause => ?_⟩
      · rw [List.filterMap_cons_some hcondition]
        rfl
      · rw [List.flatMap_singleton, herrors]
      · rw [List.filterMap_cons_none (hvalue clause)]
        rfl

theorem added_clausePairs (h : ServesKeys query column) (count : ℕ) :
    (clausePairs p count).filterMap (addedCondition query) = [] ∧
      (clausePairs p count).flatMap (addedErrors query) = (sortValues p).flatMap (fun value =>
        (sortItems value).filterMap (missingColumn query)) := by
  constructor
  · refine List.filterMap_eq_nil_iff.mpr fun pair hpair => ?_
    obtain ⟨clause, hclause⟩ := h.clausePairs_clause count pair hpair
    rw [addedCondition, hclause]
  · have hlast : ∀ l : List (CString × CString), (∀ pair ∈ l, ∃ clause, clause ≠ .orderBy ∧
        treatment lib query pair.1 = .clause clause) → l.flatMap (addedErrors query) = [] := by
      refine fun l hl => List.flatMap_eq_nil_iff.mpr fun pair hpair => ?_
      obtain ⟨clause, hclause, htreatment⟩ := hl pair hpair
      rw [addedErrors, htreatment]
      cases clause with
      | orderBy => exact absurd rfl hclause
      | limit => rfl
      | offset => rfl
      | groupBy => rfl
    rw [clausePairs, List.append_assoc, List.flatMap_append, List.flatMap_map, hlast,
      List.append_nil]
    · refine List.flatMap_congr fun value _ => ?_
      rw [addedErrors, h.sortBy]
    · intro pair hpair
      rcases List.mem_append.mp hpair with hpair | hpair
      · rw [List.mem_singleton.mp hpair]
        exact ⟨.limit, by decide, h.limit⟩
      · rw [List.mem_singleton.mp (List.mem_ite_nil_right.mp hpair).2]
        exact ⟨.offset, by decide, h.offset⟩

theorem givenValue_clausePairs (h : ServesKeys query column) (count : ℕ) :
    (clausePairs p count).filterMap (givenValue query .limit) =
        [textString (decimal p.numResults)] ∧
      (clausePairs p count).filterMap (givenValue query .offset) =
        (if 0 < count then [textString (decimal (count * p.numResults))] else []) ∧
      (clausePairs p count).filterMap (givenValue query .orderBy) = sortValues p := by
  by_cases hcount : 0 < count
  · simp [clausePairs, List.filterMap_map, Function.comp_def, givenValue, h.sortBy, h.limit,
      h.offset, hcount]
  · simp [clausePairs, List.filterMap_map, Function.comp_def, givenValue, h.sortBy, h.limit, hcount]

theorem requestRead (h : ServesKeys query column) (htexts : textPairs p = [])
    (hle : ∀ kind, (p.ids kind).length ≤ 1) {count : ℕ} {q q' : MusicIndexer.MusicQuery lib}
    (hread : q.Read query (requestPairs p count) q') :
    RequestRead column p count
      ((sortValues p).flatMap (fun value => (sortItems value).filterMap (sortTerm query)))
      ((sortValues p).flatMap (fun value => (sortItems value).filterMap (missingColumn query)))
      q q' := by
  obtain ⟨-, ⟨r, hr, hconditions, hwords, horder⟩, herrors⟩ := hread
  obtain ⟨hnone, hmissing⟩ := h.added_clausePairs (p := p) count
  obtain ⟨hlimit, hoffset, hsort⟩ := h.givenValue_clausePairs (p := p) count
  have hvalues : ∀ clause, givenValues query clause (requestPairs p count) =
      (clausePairs p count).filterMap (givenValue query clause) := by
    intro clause
    have hids : (urlKinds.flatMap (idPairs p)).filterMap (givenValue query clause) = [] := by
      rw [List.filterMap_flatMap]
      exact List.flatMap_eq_nil_iff.mpr fun kind _ => (h.added_idPairs (hle kind)).2.2 clause
    rw [givenValues, requestPairs, htexts, List.append_nil, List.filterMap_append, hids,
      List.nil_append]
  refine ⟨⟨r, hr, ?_, ?_, ?_, ?_⟩, ?_⟩
  · rw [hconditions, requestPairs, htexts, List.append_nil, List.filterMap_append, hnone,
      List.append_nil, List.filterMap_flatMap]
    exact List.flatMap_congr fun kind _ => (h.added_idPairs (hle kind)).1
  · rw [hwords .limit (by decide), hvalues, hlimit]
    rfl
  · rw [hwords .offset (by decide), hvalues, hoffset]
    split_ifs <;> rfl
  · rw [horder, copiedTerms, hvalues, hsort]
  · have hids : (urlKinds.flatMap (idPairs p)).flatMap (addedErrors query) = [] := by
      rw [List.flatMap_assoc]
      exact List.flatMap_eq_nil_iff.mpr fun kind _ => (h.added_idPairs (hle kind)).2.1
    rw [herrors, requestPairs, htexts, List.append_nil, List.flatMap_append, hids, List.nil_append,
      hmissing]

theorem request (h : ServesKeys query column) (hp : Simple p) (htexts : textPairs p = [])
    {hostname : Word} {count : ℕ} {q : MusicIndexer.MusicQuery lib} (hknown : q.known = some query)
    (hwords : q.queryNouns = (pathWords (setUrl hostname count p)).map textString) :
    ((∃ kind, 2 ≤ (p.ids kind).length) → MusicIndexer.getMusicQuery q = .error .nullPool) ∧
      ((∀ kind, (p.ids kind).length ≤ 1) → ∃ q', MusicIndexer.getMusicQuery q = .ok (0, q') ∧
        RequestRead column p count
          ((sortValues p).flatMap (fun value => (sortItems value).filterMap (sortTerm query)))
          ((sortValues p).flatMap (fun value =>
            (sortItems value).filterMap (missingColumn query))) q q') := by
  obtain ⟨hpairs, hlength⟩ := hp.pairs_words hwords
  have hkeys := h.known_keys (p := p) (by rw [htexts]; exact List.forall_mem_nil _) count
  have hiff := h.proceeds_iff htexts count
  rw [← hpairs] at hkeys hiff
  obtain ⟨hfault, htaken⟩ := getMusicQuery_of_keys hknown hlength hkeys
  constructor
  · rintro ⟨kind, htwo⟩
    refine hfault fun hall => ?_
    have hle := hiff.mp hall kind
    omega
  · intro hle
    obtain ⟨q', hcall, hread⟩ := htaken (hiff.mpr hle)
    rw [hpairs] at hread
    exact ⟨q', hcall, h.requestRead htexts hle hread⟩

end ServesKeys

end Server

def listedQuery (columns : List ColumnTable) : MusicIndexer.DbQuery compareWords where
  columns := columns
  findColumn name := columns.find? (fun column => compareWords name column.freindlyName == 0)
  found name column h := ⟨List.mem_of_find?_eq_some h, by simpa using List.find?_some h⟩
  missing name h column hcolumn := by simpa using List.find?_eq_none.mp h column hcolumn

def listedLibrary (query : MusicIndexer.DbQuery compareWords) : Library where
  strnatcasecmp := compareWords
  findQueryById id := if id = CString.ofAscii "songs" then some query else none

def receivedQuery (query : MusicIndexer.DbQuery compareWords) (hostname : Word) (count : ℕ)
    (p : QueryParameters) : MusicIndexer.MusicQuery (listedLibrary query) where
  type := .songs
  dbQuery := none
  dbQueryParameters := none
  errorMessages := ⟨0, fun _ => whereError.record⟩
  queryNouns := (pathWords (setUrl hostname count p)).map textString

theorem Simple.known {p : QueryParameters} (h : Simple p) (htype : p.type.letters = text "songs")
    (query : MusicIndexer.DbQuery compareWords) (hostname : Word) (count : ℕ) :
    (receivedQuery query hostname count p).known = some query := by
  have hword : (receivedQuery query hostname count p).queryNouns[1]? =
      some (CString.ofAscii "songs") := by
    rw [receivedQuery, pathWords_setUrl hostname count p (h.clear count), htype]
    rfl
  rw [MusicIndexer.MusicQuery.known, hword]
  rfl

def idColumn (kind : PaneKind) : ColumnTable := songColumn (kind.name ++ "id") (idKey kind) .int

end ModMp
