import ModMp.CStringSearch
import ModMp.JsonString

/-!
# Escaping for JSON replies

`jsonEscapeChar` copies its string and then splices a backslash in front of each quote and each
backslash of the copy, moving its index past the inserted pair. The string it scans grows under
the loop, but what lies after the index does not. The loop computes the plain escaping, and its
result is a JSON string that denotes the original exactly when no control byte is present.

The index of the source is an `int`, and here a natural number, since no string that the program
escapes has 2^31 bytes. Below that `jsonEscapeChar_eq_rounds` shows that the loop with the `int`
computes the same.
-/

namespace ModMp
open CLib JsonString

/-- The string with its byte at `i` replaced by the pair in `escaped`: a NUL is written at `i`, and
the strings on both sides of it are concatenated around the pair. -/
def spliceEscape (escapeString : CString) (i : ℕ) (escaped : CString) : CString :=
  let cut := escapeString.bytes.set i 0
  (CString.ofBytes cut).append (escaped.append (CString.ofBytes (cut.drop (i + 1))))

theorem spliceEscape_bytes (s : CString) {i : ℕ} (hi : i < s.length) (e : CString) :
    (spliceEscape s i e).bytes = s.bytes.take i ++ (e.bytes ++ s.bytes.drop (i + 1)) := by
  have hleft : (CString.ofBytes (s.bytes.set i 0)).bytes = s.bytes.take i := by
    rw [List.set_eq_take_append_cons_drop, if_pos (show i < s.bytes.length from hi)]
    exact CString.ofBytes_append_zero (fun h => s.nul_free (List.mem_of_mem_take h))
  have hright : (CString.ofBytes ((s.bytes.set i 0).drop (i + 1))).bytes =
      s.bytes.drop (i + 1) := by
    rw [List.drop_set_of_lt (Nat.lt_succ_self i)]
    exact CString.ofBytes_bytes (fun h => s.nul_free (List.mem_of_mem_drop h))
  rw [spliceEscape, CString.append_bytes, CString.append_bytes, hleft, hright]

theorem spliceEscape_length (s : CString) {i : ℕ} (hi : i < s.length) {e : CString}
    (he : e.length = 2) : (spliceEscape s i e).length = s.length + 1 := by
  unfold CString.length at hi he ⊢
  rw [spliceEscape_bytes s hi, List.length_append, List.length_append, List.length_take_of_le hi.le,
    List.length_drop, he]
  omega

def escapedQuote : CString := ⟨[backslash, quote], by decide⟩

def escapedBackslash : CString := ⟨[backslash, backslash], by decide⟩

/-- The loop of `json_escape_char`, from index `i` on. -/
def escapeLoop (escapeString : CString) (i : ℕ) : CString :=
  if h : i < escapeString.length then
    if escapeString.bytes.get ⟨i, h⟩ = quote then
      have := spliceEscape_length escapeString h (e := escapedQuote) rfl
      escapeLoop (spliceEscape escapeString i escapedQuote) (i + 1 + 1)
    else if escapeString.bytes.get ⟨i, h⟩ = backslash then
      have := spliceEscape_length escapeString h (e := escapedBackslash) rfl
      escapeLoop (spliceEscape escapeString i escapedBackslash) (i + 1 + 1)
    else escapeLoop escapeString (i + 1)
  else escapeString
termination_by escapeString.length - i

def jsonEscapeChar : Option CString → Option CString
  | none => none
  | some string => some (escapeLoop string 0)

theorem length_take_append_escaped (s : CString) {i : ℕ} (hi : i < s.length) {e : CString}
    (he : e.length = 2) : (s.bytes.take i ++ e.bytes).length = i + 1 + 1 := by
  rw [List.length_append, List.length_take_of_le (Nat.le_of_lt hi)]
  exact congrArg (i + ·) he

theorem take_spliceEscape (s : CString) {i : ℕ} (hi : i < s.length) {e : CString}
    (he : e.length = 2) :
    (spliceEscape s i e).bytes.take (i + 1 + 1) = s.bytes.take i ++ e.bytes := by
  rw [spliceEscape_bytes s hi, ← List.append_assoc, ← length_take_append_escaped s hi he,
    List.take_left]

theorem drop_spliceEscape (s : CString) {i : ℕ} (hi : i < s.length) {e : CString}
    (he : e.length = 2) :
    (spliceEscape s i e).bytes.drop (i + 1 + 1) = s.bytes.drop (i + 1) := by
  rw [spliceEscape_bytes s hi, ← List.append_assoc, ← length_take_append_escaped s hi he,
    List.drop_left]

theorem drop_eq_get_cons (s : CString) {i : ℕ} (hi : i < s.length) :
    s.bytes.drop i = s.bytes.get ⟨i, hi⟩ :: s.bytes.drop (i + 1) :=
  List.drop_eq_getElem_cons hi

/-- Before the index nothing changes any more, and what is after it is escaped. -/
theorem escapeLoop_bytes (s : CString) (i : ℕ) :
    (escapeLoop s i).bytes = s.bytes.take i ++ escape (s.bytes.drop i) := by
  induction s, i using escapeLoop.induct with
  | case1 s i hi hquote _ ih =>
      rw [escapeLoop, dif_pos hi, if_pos hquote, ih, take_spliceEscape s hi rfl,
        drop_spliceEscape s hi rfl, drop_eq_get_cons s hi, hquote,
        escape_cons_special (.inl rfl), List.append_assoc]
      rfl
  | case2 s i hi hquote hback _ ih =>
      rw [escapeLoop, dif_pos hi, if_neg hquote, if_pos hback, ih, take_spliceEscape s hi rfl,
        drop_spliceEscape s hi rfl, drop_eq_get_cons s hi, hback,
        escape_cons_special (.inr rfl), List.append_assoc]
      rfl
  | case3 s i hi hquote hback ih =>
      rw [escapeLoop, dif_pos hi, if_neg hquote, if_neg hback, ih, drop_eq_get_cons s hi,
        escape_cons_plain (not_or.mpr ⟨hquote, hback⟩),
        List.take_succ_eq_append_getElem hi, List.append_assoc]
      rfl
  | case4 s i hi =>
      have hlen : s.bytes.length ≤ i := not_lt.mp hi
      rw [escapeLoop, dif_neg hi, List.take_of_length_le hlen, List.drop_eq_nil_of_le hlen,
        escape_nil, List.append_nil]

theorem jsonEscapeChar_eq (s : CString) :
    ∃ r, jsonEscapeChar (some s) = some r ∧ r.bytes = escape s.bytes := by
  refine ⟨escapeLoop s 0, rfl, ?_⟩
  rw [escapeLoop_bytes, List.take_zero, List.drop_zero, List.nil_append]

/-- The loop that splices in place computes the plain escaping. Each quote of the result is the
second byte of an escape, and without the escapes the result is the original. -/
theorem jsonEscapeChar_escapes (s : CString) : ∃ r, jsonEscapeChar (some s) = some r ∧
    r.bytes = s.bytes.flatMap escapeByte ∧
    (∀ u v, r.bytes = u ++ quote :: v → inEscape u = true) ∧
    removeEscapes r.bytes = s.bytes := by
  obtain ⟨r, hr, hbytes⟩ := jsonEscapeChar_eq s
  refine ⟨r, hr, ?_, ?_, ?_⟩
  · rw [hbytes, escape_eq_flatMap]
  · intro u v hquote
    rw [hbytes] at hquote
    exact inEscape_of_escape hquote
  · rw [hbytes, removeEscapes_escape]

/-- The reply text of a UTF-8 string is a JSON string that denotes it, exactly when the string
has no control byte: quotes and backslashes are escaped, and control bytes are left as they are. -/
theorem jsonEscapeChar_denotes_iff (s : CString) (hs : ValidUtf8 s.bytes) :
    (∃ r, jsonEscapeChar (some s) = some r ∧ Denotes (quoted r.bytes) s.bytes) ↔
      ∀ b ∈ s.bytes, 0x20 ≤ b := by
  obtain ⟨r, hr, hbytes⟩ := jsonEscapeChar_eq s
  rw [← denotes_quoted_escape_iff hs, ← hbytes]
  constructor
  · rintro ⟨r', hr', hd⟩
    rw [hr, Option.some.injEq] at hr'
    exact hr' ▸ hd
  · intro hd
    exact ⟨r, hr, hd⟩

def lineFeed : CString := ⟨[0x0A], by decide⟩

/-- A line feed comes out raw, and no JSON string contains one. -/
theorem jsonEscapeChar_lineFeed : ValidUtf8 lineFeed.bytes ∧
    ¬ ∃ r, jsonEscapeChar (some lineFeed) = some r ∧ Denotes (quoted r.bytes) lineFeed.bytes := by
  have hvalid : ValidUtf8 lineFeed.bytes := validUtf8_char (Char.ofNat 0x0A)
  refine ⟨hvalid, ?_⟩
  rintro ⟨r, hr, hd⟩
  obtain ⟨r', hr', hbytes⟩ := jsonEscapeChar_eq lineFeed
  rw [hr, Option.some.injEq] at hr'
  rw [hr', hbytes, denotes_quoted_escape_iff hvalid] at hd
  exact absurd (hd 0x0A (List.mem_singleton_self _)) (by decide)

def quotedBackslash : CString := ⟨[0x22, 0xC3, 0xA9, 0x5C], by decide⟩

theorem jsonEscapeChar_quotedBackslash : ∃ r, jsonEscapeChar (some quotedBackslash) = some r ∧
    Denotes (quoted r.bytes) quotedBackslash.bytes := by
  have hvalid : ValidUtf8 quotedBackslash.bytes :=
    ⟨[Char.ofNat 0x22, Char.ofNat 0xE9, Char.ofNat 0x5C], by decide⟩
  have hlow : ∀ b ∈ quotedBackslash.bytes, 0x20 ≤ b := by
    simp [quotedBackslash, UInt8.le_iff_toNat_le]
  exact (jsonEscapeChar_denotes_iff quotedBackslash hvalid).mpr hlow

/-- The loop of `json_escape_char` with its index in an `int`, for at most `rounds` rounds. -/
def escapeRounds : ℕ → CString → ℤ → Option CString
  | 0, _, _ => none
  | rounds + 1, escapeString, i =>
      -- A negative index is converted to a large `size_t`.
      if h : 0 ≤ i ∧ i.toNat < escapeString.length then
        if escapeString.bytes.get ⟨i.toNat, h.2⟩ = quote then
          escapeRounds rounds (spliceEscape escapeString i.toNat escapedQuote)
            (toInt (toInt (i + 1) + 1))
        else if escapeString.bytes.get ⟨i.toNat, h.2⟩ = backslash then
          escapeRounds rounds (spliceEscape escapeString i.toNat escapedBackslash)
            (toInt (toInt (i + 1) + 1))
        else escapeRounds rounds escapeString (toInt (i + 1))
      else some escapeString

theorem toInt_succ {i : ℕ} (h : i + 1 < 2 ^ 31) : toInt ((i : ℤ) + 1) = (i + 1 : ℕ) :=
  toInt_natCast h

theorem spliceEscape_fits (s : CString) {i rounds : ℕ} (hi : i < s.length)
    (hb : s.bytes.get ⟨i, hi⟩ = quote ∨ s.bytes.get ⟨i, hi⟩ = backslash) {e : CString}
    (he : e.length = 2) (hfit : i + (escape (s.bytes.drop i)).length < 2 ^ 31)
    (hrounds : s.length - i < rounds + 1) :
    toInt (toInt (i + 1) + 1) = (i + 1 + 1 : ℕ) ∧
      i + 1 + 1 + (escape ((spliceEscape s i e).bytes.drop (i + 1 + 1))).length < 2 ^ 31 ∧
      (spliceEscape s i e).length - (i + 1 + 1) < rounds := by
  have hlen : (escape (s.bytes.drop i)).length = (escape (s.bytes.drop (i + 1))).length + 2 := by
    rw [drop_eq_get_cons s hi, escape_cons_special hb]
    rfl
  refine ⟨?_, ?_, ?_⟩
  · rw [toInt_succ (by omega), toInt_succ (by omega)]
  · rw [drop_spliceEscape s hi he]
    omega
  · rw [spliceEscape_length s hi he]
    omega

theorem escapeRounds_eq (s : CString) (i rounds : ℕ)
    (hfit : i + (escape (s.bytes.drop i)).length < 2 ^ 31) (hrounds : s.length - i < rounds) :
    escapeRounds rounds s i = some (escapeLoop s i) := by
  induction s, i using escapeLoop.induct generalizing rounds with
  | case1 s i hi hquote _ ih =>
      obtain ⟨rounds, rfl⟩ := Nat.exists_eq_succ_of_ne_zero (Nat.ne_zero_of_lt hrounds)
      obtain ⟨hindex, hfit', hrounds'⟩ := spliceEscape_fits s hi (.inl hquote)
        (e := escapedQuote) rfl hfit hrounds
      have hround : escapeRounds (rounds + 1) s i = _ :=
        (dif_pos ⟨Int.natCast_nonneg i, hi⟩).trans (if_pos hquote)
      rw [hround, hindex, escapeLoop, dif_pos hi, if_pos hquote]
      exact ih rounds hfit' hrounds'
  | case2 s i hi hquote hback _ ih =>
      obtain ⟨rounds, rfl⟩ := Nat.exists_eq_succ_of_ne_zero (Nat.ne_zero_of_lt hrounds)
      obtain ⟨hindex, hfit', hrounds'⟩ := spliceEscape_fits s hi (.inr hback)
        (e := escapedBackslash) rfl hfit hrounds
      have hround : escapeRounds (rounds + 1) s i = _ :=
        (dif_pos ⟨Int.natCast_nonneg i, hi⟩).trans ((if_neg hquote).trans (if_pos hback))
      rw [hround, hindex, escapeLoop, dif_pos hi, if_neg hquote, if_pos hback]
      exact ih rounds hfit' hrounds'
  | case3 s i hi hquote hback ih =>
      obtain ⟨rounds, rfl⟩ := Nat.exists_eq_succ_of_ne_zero (Nat.ne_zero_of_lt hrounds)
      have hround : escapeRounds (rounds + 1) s i = _ :=
        (dif_pos ⟨Int.natCast_nonneg i, hi⟩).trans ((if_neg hquote).trans (if_neg hback))
      rw [drop_eq_get_cons s hi, escape_cons_plain (not_or.mpr ⟨hquote, hback⟩),
        List.length_cons] at hfit
      rw [hround, toInt_succ (by omega), escapeLoop, dif_pos hi, if_neg hquote, if_neg hback]
      exact ih rounds (by omega) (by omega)
  | case4 s i hi =>
      obtain ⟨rounds, rfl⟩ := Nat.exists_eq_succ_of_ne_zero (Nat.ne_zero_of_lt hrounds)
      rw [escapeRounds, dif_neg (fun h => hi h.2), escapeLoop, dif_neg hi]

theorem jsonEscapeChar_eq_rounds (s : CString) (hshort : (escape s.bytes).length < 2 ^ 31) :
    jsonEscapeChar (some s) = escapeRounds (s.length + 1) s 0 := by
  refine (escapeRounds_eq s 0 (s.length + 1) ?_ (Nat.lt_succ_self _)).symm
  rw [List.drop_zero, Nat.zero_add]
  exact hshort

end ModMp
