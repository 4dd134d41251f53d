import ModMp.MusicQueryFields

/-!
# What the server reads from the URL of a music query

The server reads the words of the path two at a time. It reads back what `setUrl` wrote exactly when
no field has a letter in it that cuts the URL, and what the client meant when moreover the sort
order is not a string.
-/

namespace ModMp
open Segments

theorem readNouns_eq (words : List Text) (nounNum : ℕ) :
    readNouns words nounNum = pairs (words.drop nounNum) := by
  induction nounNum using readNouns.induct words with
  | case1 nounNum h ih =>
      rw [readNouns, dif_pos h, ih, List.drop_eq_getElem_cons (Nat.lt_of_succ_lt h),
        List.drop_eq_getElem_cons h]
      rfl
  | case2 nounNum h =>
      rw [readNouns, dif_neg h]
      have hlen : (words.drop nounNum).length ≤ 1 := by
        rw [List.length_drop]
        omega
      match words.drop nounNum, hlen with
      | [], _ => rfl
      | [_], _ => rfl

theorem getMusicQuery_eq (words : List Text) : getMusicQuery words = pairs (words.drop 2) := by
  unfold getMusicQuery
  split_ifs with h
  · rw [← readNouns_eq, readNouns, dif_neg (by omega)]
  · exact readNouns_eq words 2

section Clear

theorem clear_digit {d : Char} (hd : d.isDigit) :
    unit d ≠ slash ∧ endsPath (unit d) = false := by
  have hrange : 48 ≤ d.toNat ∧ d.toNat ≤ 57 := by
    simpa [Char.isDigit, UInt32.le_iff_toNat_le] using hd
  obtain ⟨hlo, hhi⟩ := hrange
  unfold unit
  generalize d.toNat = n at hlo hhi
  interval_cases n <;> decide

theorem clear_decimal (n : ℕ) : ClearText (decimal n) := by
  intro c hc
  obtain ⟨d, hd, rfl⟩ := List.mem_map.mp hc
  exact clear_digit (Nat.isDigit_of_mem_toDigits (by norm_num) (by norm_num) hd)

theorem clear_sortStringOfLetters (t : Text) : ClearText (sortStringOfLetters t) := by
  cases t with
  | nil =>
      intro c hc
      exact absurd hc List.not_mem_nil
  | cons c t =>
      apply Clean.append (v := text "NaN") (by decide)
      exact Clean.flatMap (fun _ _ => by decide)

/-- No string is what the loop over its letters writes: that is longer. -/
theorem sortStringOfLetters_ne {t : Text} (ht : t ≠ []) : sortStringOfLetters t ≠ t := by
  obtain ⟨c, l, rfl⟩ := List.exists_cons_of_ne_nil ht
  intro h
  have hlength := congrArg List.length h
  have hundefined : (text ",undefinedundefined").length = 19 := by decide
  have hnan : (text "NaN").length = 3 := by decide
  rw [sortStringOfLetters, List.length_append, List.length_flatMap, List.map_const', hundefined,
    List.sum_replicate, hnan, List.length_cons] at hlength
  dsimp only [smul_eq_mul] at hlength
  omega

theorem clear_key {key : String} {l : List (Text × Text)} (h : ClearText (text key))
    (hkey : ∀ field ∈ l, field.1 = text key) : ∀ field ∈ l, ClearText field.1 :=
  fun field hfield => (hkey field hfield).symm ▸ h

theorem key_idField (key : String) (ids : List ℕ) :
    ∀ field ∈ idField key ids, field.1 = text key := by
  intro field hfield
  rw [List.mem_singleton.mp (List.mem_ite_nil_right.mp hfield).2]

theorem key_typeField (key : String) (t : Option Text) :
    ∀ field ∈ typeField key t, field.1 = text key := by
  intro field hfield
  cases t with
  | none => exact absurd hfield List.not_mem_nil
  | some t => rw [List.mem_singleton.mp hfield]

theorem key_textField (key : String) (t : Option Text) :
    ∀ field ∈ textField key t, field.1 = text key := by
  intro field hfield
  cases t with
  | none => exact absurd hfield List.not_mem_nil
  | some t => rw [List.mem_singleton.mp (List.mem_ite_nil_right.mp hfield).2]

theorem clear_keys {sortField : List (Text × Text)}
    (hsort : ∀ field ∈ sortField, ClearText field.1) (count : ℕ) (p : QueryParameters) :
    ∀ field ∈ setFields sortField count p, ClearText field.1 := by
  have hif : ∀ {P : Prop} [Decidable P] {l : List (Text × Text)},
      (∀ field ∈ l, ClearText field.1) → ∀ field ∈ (if P then l else []), ClearText field.1 := by
    intro P _ l h
    split_ifs
    · exact h
    · exact List.forall_mem_nil _
  unfold setFields fieldsBefore typeFields limitFields
  simp only [List.forall_mem_append]
  refine ⟨⟨⟨⟨⟨⟨⟨⟨⟨?_, ?_⟩, ?_⟩, ?_⟩, ?_⟩, ?_⟩, ?_⟩, hsort⟩, ?_, ?_⟩, ?_, ?_⟩
  · exact clear_key (by decide) (key_idField _ _)
  · exact clear_key (by decide) (key_idField _ _)
  · exact clear_key (by decide) (key_idField _ _)
  · exact clear_key (by decide) (key_idField _ _)
  · exact clear_key (by decide) (key_textField _ _)
  · exact clear_key (by decide) (key_textField _ _)
  · exact clear_key (by decide) (key_textField _ _)
  · exact hif (clear_key (by decide) (key_typeField _ _))
  · exact hif (clear_key (by decide) (key_typeField _ _))
  · exact hif (List.forall_mem_singleton.mpr (show ClearText (text "limit") by decide))
  · exact hif (List.forall_mem_singleton.mpr (show ClearText (text "offset") by decide))

theorem SortBy.written_cases (s : SortBy) :
    s.written = s.field ∧ (∀ t, s = .string t → t = []) ∨
    ∃ t ≠ [], s = .string t ∧ s.field = [(text "sort_by", t)] ∧
      s.written = [(text "sort_by", sortStringOfLetters t)] := by
  cases s with
  | null => exact .inl ⟨rfl, fun _ h => by cases h⟩
  | columns cols => exact .inl ⟨rfl, fun _ h => by cases h⟩
  | string t =>
      cases t with
      | nil => exact .inl ⟨rfl, fun _ h => by cases h; rfl⟩
      | cons c t => exact .inr ⟨c :: t, List.cons_ne_nil c t, rfl, rfl, rfl⟩

theorem SortBy.clear_key (s : SortBy) : ∀ field ∈ s.written, ClearText field.1 := by
  intro field hfield
  have hkey : field.1 = text "sort_by" := by
    rcases s.written_cases with ⟨h, -⟩ | ⟨t, -, -, -, h⟩
    · rw [h] at hfield
      cases s with
      | null => exact absurd hfield List.not_mem_nil
      | columns cols => rw [List.mem_singleton.mp (List.mem_ite_nil_right.mp hfield).2]
      | string t => rw [List.mem_singleton.mp (List.mem_ite_nil_right.mp hfield).2]
    · rw [h] at hfield
      rw [List.mem_singleton.mp hfield]
  rw [hkey]
  decide

end Clear

theorem urlHead_eq (hostname : Word) (p : QueryParameters) : urlHead hostname p =
    text "http:" ++ join slash [[], hostname.letters, text "music", p.type.letters] := by
  simp [urlHead, join, text, slash]

theorem urlHead_pieces (hostname : Word) (p : QueryParameters) :
    ((urlHead hostname p).splitOn slash).length = 3 + 2 := by
  have hwords : ∀ w ∈ [[], hostname.letters, text "music", p.type.letters], slash ∉ w := by
    have hclear : ∀ w : Word, slash ∉ w.letters := fun w h => (w.clear slash h).1 rfl
    simp only [List.forall_mem_cons]
    exact ⟨List.not_mem_nil, hclear hostname, by decide, hclear p.type, List.forall_mem_nil _⟩
  rw [urlHead_eq, splitOn_append_join hwords, List.splitOn_eq_singleton (by decide)]
  rfl

theorem urlHead_stopFree (hostname : Word) (p : QueryParameters) :
    ∀ c ∈ urlHead hostname p, endsPath c = false := by
  have hconstant : ∀ t : Text, t.all (fun c => !endsPath c) = true →
      ∀ c ∈ t, endsPath c = false := by
    intro t ht c hc
    simpa using List.all_eq_true.mp ht c hc
  unfold urlHead
  simp only [List.forall_mem_append]
  exact ⟨⟨⟨hconstant _ (by decide), fun c hc => (hostname.clear c hc).2⟩,
    hconstant _ (by decide)⟩, fun c hc => (p.type.clear c hc).2⟩

/-- The written fields are read back exactly when their values are clear. -/
theorem getMusicQuery_written_iff (hostname : Word) (count : ℕ) (p : QueryParameters) :
    getMusicQuery (pathWords (setUrl hostname count p)) = setFields p.sortBy.written count p ↔
      ∀ field ∈ setFields p.sortBy.written count p, ClearText field.2 := by
  have hkeys := clear_keys p.sortBy.clear_key count p
  rw [getMusicQuery_eq, pathWords, List.drop_drop, setUrl_eq, ← urlHead_pieces hostname p,
    fieldsText, pairs_cut_eq_iff (by decide) (urlHead_stopFree hostname p)]
  constructor
  · intro h field hfield
    exact (h field hfield).2
  · intro h field hfield
    exact ⟨hkeys field hfield, h field hfield⟩

theorem mem_setFields_or {sortField : List (Text × Text)} {count : ℕ} {p : QueryParameters}
    {field : Text × Text} (other : List (Text × Text)) (h : field ∈ setFields sortField count p) :
    field ∈ setFields other count p ∨ field ∈ sortField := by
  rw [setFields, List.mem_append, List.mem_append, List.mem_append] at h
  rcases h with ((hbefore | hsort) | htype) | hlimit
  · exact .inl (List.mem_append_left _ (List.mem_append_left _ (List.mem_append_left _ hbefore)))
  · exact .inr hsort
  · exact .inl (List.mem_append_left _ (List.mem_append_right _ htype))
  · exact .inl (List.mem_append_right _ hlimit)

theorem clear_of_mem_getMusicQuery {url : Text} {field : Text × Text}
    (h : field ∈ getMusicQuery (pathWords url)) : ClearText field.2 := by
  rw [getMusicQuery_eq] at h
  exact clean_of_mem_cut (List.mem_of_mem_drop (List.mem_of_mem_drop (mem_of_mem_pairs h).2))

/-- The server reads what the client means exactly when the texts of the set fields have no `/`, no
`?` and no `#`, and the sort order is not a string. -/
theorem getMusicQuery_setUrl_iff (hostname : Word) (count : ℕ) (p : QueryParameters) :
    getMusicQuery (pathWords (setUrl hostname count p)) = meantFields count p ↔
      (∀ field ∈ meantFields count p, ClearText field.2) ∧
        ∀ t, p.sortBy = .string t → t = [] := by
  have hwritten := getMusicQuery_written_iff hostname count p
  rcases p.sortBy.written_cases with ⟨hsame, hstring⟩ | ⟨t, ht, hsort, hfield, hletters⟩
  · rw [hsame] at hwritten
    rw [meantFields, hwritten, and_iff_left hstring]
  · apply iff_of_false
    · intro hread
      have hclear : ∀ field ∈ setFields p.sortBy.written count p, ClearText field.2 := by
        intro field hmem
        have hcases : field ∈ meantFields count p ∨
            field = (text "sort_by", sortStringOfLetters t) := by
          rw [hletters] at hmem
          exact (mem_setFields_or p.sortBy.field hmem).imp_right List.mem_singleton.mp
        rcases hcases with hmem | rfl
        · rw [← hread] at hmem
          exact clear_of_mem_getMusicQuery hmem
        · exact clear_sortStringOfLetters t
      have heq := (hwritten.mpr hclear).symm.trans hread
      rw [meantFields, hletters, hfield] at heq
      simp only [setFields, List.append_assoc] at heq
      have hvalue := (List.cons.inj (List.append_cancel_left heq)).1
      exact sortStringOfLetters_ne ht (congrArg Prod.snd hvalue)
    · intro h
      exact ht (h.2 t hsort)

def exampleHost : Word := ⟨text "localhost", by decide⟩

def searchParameters (songTitle : Text) : QueryParameters where
  type := ⟨text "songs", by decide⟩
  numResults := 100
  sortBy := .null
  artistId := []
  albumId := []
  songId := []
  sourceId := []
  albumName := none
  artistName := none
  songTitle := some songTitle
  sourceType := none
  outputType := none
  objects := [text "songs"]

/-- A slash in a title cuts it, and the rest is read as a key. -/
theorem searchParameters_acdc :
    getMusicQuery (pathWords (setUrl exampleHost 0 (searchParameters (text "*AC/DC*")))) =
      [(text "song_title", text "*AC"), (text "DC*", text "limit")] ∧
    getMusicQuery (pathWords (setUrl exampleHost 0 (searchParameters (text "*AC/DC*")))) ≠
      meantFields 0 (searchParameters (text "*AC/DC*")) := by
  rw [getMusicQuery_eq]
  decide

end ModMp
