import ModMp.CStringSearch
import ModMp.Input

/-!
# The parameter table is the parsed query string

The reference reading of a query string cuts it at every separator, drops the empty pieces,
splits each piece at its first `=`, and merges the pairs from left to right. The cursor loop of
`getParametersFromUri` terminates on every URI and computes exactly this table: one iteration
consumes one piece and its separator. Of `apr_table_mergen` only what `Merges` says is used.
-/

namespace ModMp
open CLib

def toLower (b : UInt8) : UInt8 :=
  if 'A'.toUInt8 ≤ b ∧ b ≤ 'Z'.toUInt8 then b + 32 else b

def sameKey (k name : Bytes) : Bool := k.map toLower == name.map toLower

/-- Appends `", "` and the value to the first entry with the key, ignoring case, or adds an
entry. -/
def mergeEntry : AprTable → Bytes → Bytes → AprTable
  | [], name, value => [(name, value)]
  | (k, v) :: rest, name, value =>
      if sameKey k name then (k, v ++ [','.toUInt8, ' '.toUInt8] ++ value) :: rest
      else (k, v) :: mergeEntry rest name value

/-- What is documented of `apr_table_mergen`: a value is appended to the one that its key has, and a
new key is added. -/
structure Merges (aprTableMergen : AprTable → Bytes → Bytes → AprTable) : Prop where
  appended : ∀ before k v after name value, (∀ e ∈ before, sameKey e.1 name = false) →
    sameKey k name = true → aprTableMergen (before ++ (k, v) :: after) name value =
      before ++ (k, v ++ [','.toUInt8, ' '.toUInt8] ++ value) :: after
  added : ∀ table name value, (∀ e ∈ table, sameKey e.1 name = false) →
    aprTableMergen table name value = table ++ [(name, value)]

theorem mergeEntry_appended {before after : AprTable} {k v name value : Bytes}
    (hbefore : ∀ e ∈ before, sameKey e.1 name = false) (hk : sameKey k name = true) :
    mergeEntry (before ++ (k, v) :: after) name value =
      before ++ (k, v ++ [','.toUInt8, ' '.toUInt8] ++ value) :: after := by
  induction before with
  | nil => rw [List.nil_append, List.nil_append, mergeEntry, if_pos hk]
  | cons e before ih =>
      obtain ⟨he, hbefore⟩ := List.forall_mem_cons.mp hbefore
      rw [List.cons_append, mergeEntry, if_neg (Bool.eq_false_iff.mp he), ih hbefore]
      rfl

theorem mergeEntry_added {table : AprTable} {name value : Bytes}
    (h : ∀ e ∈ table, sameKey e.1 name = false) :
    mergeEntry table name value = table ++ [(name, value)] := by
  induction table with
  | nil => rfl
  | cons e table ih =>
      obtain ⟨he, htable⟩ := List.forall_mem_cons.mp h
      rw [mergeEntry, if_neg (Bool.eq_false_iff.mp he), ih htable]
      rfl

theorem merges_mergeEntry : Merges mergeEntry where
  appended _ _ _ _ _ _ hbefore hk := mergeEntry_appended hbefore hk
  added _ _ _ h := mergeEntry_added h

/-- The documented behaviour leaves no choice. -/
theorem Merges.eq_mergeEntry {aprTableMergen : AprTable → Bytes → Bytes → AprTable}
    (h : Merges aprTableMergen) : aprTableMergen = mergeEntry := by
  funext table name value
  by_cases hkey : ∃ e ∈ table, sameKey e.1 name = true
  · obtain ⟨e, hmem, he⟩ := hkey
    obtain ⟨⟨k, v⟩, before, after, hfirst, hk, rfl, -⟩ :=
      List.exists_of_eraseP (p := fun e => sameKey e.1 name) hmem he
    have hbefore : ∀ e ∈ before, sameKey e.1 name = false :=
      fun e he => Bool.eq_false_iff.mpr (hfirst e he)
    rw [h.appended before k v after name value hbefore hk, mergeEntry_appended hbefore hk]
  · have hnew : ∀ e ∈ table, sameKey e.1 name = false :=
      fun e he => Bool.eq_false_iff.mpr (fun hsame => hkey ⟨e, he, hsame⟩)
    rw [h.added table name value hnew, mergeEntry_added hnew]

def isSeparator (b : UInt8) : Bool := ['&'.toUInt8, ';'.toUInt8].contains b

def queryPieces (query : Bytes) : List Bytes :=
  (query.splitOnP isSeparator).filter (fun piece => piece ≠ [])

/-- A piece split at its first `=`, with an empty value when there is none. -/
def splitPiece (piece : Bytes) : Bytes × Bytes :=
  (piece.takeWhile (· != '='.toUInt8), (piece.dropWhile (· != '='.toUInt8)).tail)

def mergePairs (aprTableMergen : AprTable → Bytes → Bytes → AprTable) (table : AprTable)
    (pairs : List (Bytes × Bytes)) : AprTable :=
  pairs.foldl (fun t p => aprTableMergen t p.1 p.2) table

/-- The table of a query string. -/
def queryTable (query : Bytes) : AprTable :=
  mergePairs mergeEntry [] ((queryPieces query).map splitPiece)

def firstPiece (l : Bytes) : Bytes := l.takeWhile (fun b => !isSeparator b)

theorem firstPiece_prefix (l : Bytes) : ∃ r, l = firstPiece l ++ r :=
  ⟨_, (List.takeWhile_append_dropWhile).symm⟩

theorem not_isSeparator_of_mem_firstPiece {l : Bytes} {b : UInt8} (hb : b ∈ firstPiece l) :
    isSeparator b = false := by
  simpa using List.mem_takeWhile_imp hb

theorem queryPieces_nil : queryPieces [] = [] := by
  simp [queryPieces, List.splitOnP_nil]

theorem drop_firstPiece_cases (l : Bytes) :
    l = firstPiece l ∨ ∃ b r, isSeparator b = true ∧ l = firstPiece l ++ b :: r := by
  cases hr : l.dropWhile (fun b => !isSeparator b) with
  | nil =>
      left
      have h := (List.takeWhile_append_dropWhile (p := fun b => !isSeparator b) (l := l)).symm
      rw [hr, List.append_nil] at h
      exact h
  | cons b r =>
      right
      have h := (List.takeWhile_append_dropWhile (p := fun b => !isSeparator b) (l := l)).symm
      rw [hr] at h
      have hne : l.dropWhile (fun b => !isSeparator b) ≠ [] := by simp [hr]
      have hb := List.head_dropWhile_not (fun b => !isSeparator b) hne
      simp only [hr, List.head_cons, Bool.not_eq_false'] at hb
      exact ⟨b, r, hb, h⟩

theorem queryPieces_cons (l : Bytes) :
    queryPieces l = (if firstPiece l = [] then [] else [firstPiece l]) ++
      queryPieces (l.drop ((firstPiece l).length + 1)) := by
  have hsep : ∀ b ∈ firstPiece l, isSeparator b = false :=
    fun b hb => not_isSeparator_of_mem_firstPiece hb
  have hcases := drop_firstPiece_cases l
  generalize firstPiece l = piece at hsep hcases ⊢
  rcases hcases with rfl | ⟨b, r, hb, rfl⟩
  · rw [List.drop_eq_nil_of_le (Nat.le_succ _), queryPieces_nil, List.append_nil, queryPieces,
      List.splitOnP_eq_singleton hsep]
    by_cases hl : l = [] <;> simp [hl]
  · rw [← List.drop_drop, List.drop_left, List.drop_one, List.tail_cons, queryPieces,
      List.splitOnP_append_cons_of_forall_mem hsep b hb, queryPieces]
    by_cases hp : piece = [] <;> simp [hp]

section Loop

variable (aprTableMergen : AprTable → Bytes → Bytes → AprTable) (uri : CString)

theorem add_length_firstPiece_le {i : ℕ} (hi : i ≤ uri.length) :
    i + (firstPiece (uri.bytes.drop i)).length ≤ uri.length := by
  have hle := (List.takeWhile_sublist (l := uri.bytes.drop i) (fun b => !isSeparator b)).length_le
  rw [List.length_drop] at hle
  unfold firstPiece
  unfold CString.length at hi ⊢
  omega

theorem read_pair {i : ℕ} (hi : i ≤ uri.length) {piece : Bytes}
    (hp : piece = firstPiece (uri.bytes.drop i)) {nameLen : ℕ}
    (hn : nameLen = (splitPiece piece).1.length) :
    uri.copy i nameLen = .ok (splitPiece piece).1 ∧
      (if piece.length - nameLen ≠ 0 then
        uri.copy ↑(i + nameLen + 1) ↑(piece.length - nameLen - 1) else pure []) =
          .ok (splitPiece piece).2 := by
  obtain ⟨r, hr⟩ := firstPiece_prefix (uri.bytes.drop i)
  have hlen := add_length_firstPiece_le uri hi
  rw [← hp] at hr hlen
  have hle : nameLen ≤ piece.length := by
    rw [hn]
    exact (List.takeWhile_sublist _).length_le
  have htake : piece.take nameLen = (splitPiece piece).1 := by
    rw [hn]
    exact List.prefix_iff_eq_take.mp (List.takeWhile_prefix _) |>.symm
  have hdrop : piece.drop (nameLen + 1) = (splitPiece piece).2 := by
    rw [hn, splitPiece, ← List.drop_drop, drop_length_takeWhile, List.drop_one]
  constructor
  · rw [uri.copy_eq (by omega), hr, List.take_append_of_le_length hle, htake]
  · split_ifs with hz
    · rw [uri.copy_eq (by omega), Nat.add_assoc, ← List.drop_drop, hr,
        List.drop_append_of_le_length (by omega), List.take_append_of_le_length (by simp; omega),
        List.take_of_length_le (by simp; omega), hdrop]
    · rw [← hdrop, List.drop_eq_nil_of_le (by omega), pure_eq_ok]

/-- One iteration merges the first piece after the cursor, unless it is empty, and moves the
cursor past the piece and its separator. -/
theorem parameterLoop_step {i : ℕ} (hi : i < uri.length) (table : AprTable) :
    parameterLoop aprTableMergen uri uri.length table i =
      parameterLoop aprTableMergen uri uri.length
        (mergePairs aprTableMergen table ((if firstPiece (uri.bytes.drop i) = [] then []
          else [firstPiece (uri.bytes.drop i)]).map splitPiece))
        (i + (firstPiece (uri.bytes.drop i)).length + 1) := by
  have hcspn : uri.strcspn i ['&'.toUInt8, ';'.toUInt8] =
      .ok (firstPiece (uri.bytes.drop i)).length := uri.strcspn_eq hi.le _
  rw [parameterLoop, dif_pos hi, hcspn, ok_bind]
  obtain ⟨piece, hp⟩ : ∃ piece, piece = firstPiece (uri.bytes.drop i) := ⟨_, rfl⟩
  rw [← hp]
  by_cases hnil : piece = []
  · subst hnil
    simp [mergePairs]
  · have hpos : piece.length ≠ 0 := by simpa using hnil
    obtain ⟨r, hr⟩ := firstPiece_prefix (uri.bytes.drop i)
    have hlen := add_length_firstPiece_le uri hi.le
    rw [← hp] at hr hlen
    have htake : (uri.bytes.drop i).take piece.length = piece := by rw [hr, List.take_left]
    have hmem := uri.memchr_eq hlen '='.toUInt8
    rw [htake] at hmem
    rw [if_neg hpos, hmem, ok_bind, if_neg hnil]
    by_cases heq : '='.toUInt8 ∈ piece
    · obtain ⟨hname, hvalue⟩ := read_pair uri hi.le hp (Nat.add_sub_cancel_left i
        (splitPiece piece).1.length)
      rw [if_pos heq]
      dsimp only
      rw [show (piece.takeWhile (· != '='.toUInt8)).length = (splitPiece piece).1.length from rfl,
        hname, ok_bind, hvalue, ok_bind]
      rfl
    · have hl : piece.length = (splitPiece piece).1.length := by
        rw [splitPiece, takeWhile_ne_of_notMem heq]
      obtain ⟨hname, hvalue⟩ := read_pair uri hi.le hp hl
      rw [if_neg heq]
      dsimp only
      rw [hname, ok_bind, hvalue, ok_bind]
      rfl

theorem parameterLoop_eq (i : ℕ) (table : AprTable) :
    parameterLoop aprTableMergen uri uri.length table i =
      .ok (mergePairs aprTableMergen table ((queryPieces (uri.bytes.drop i)).map splitPiece)) := by
  -- the cursor advances in every iteration
  induction hm : uri.length - i using Nat.strong_induction_on generalizing i table with
  | _ m ih =>
      by_cases hi : i < uri.length
      · rw [parameterLoop_step aprTableMergen uri hi, ih _ (by omega) _ _ rfl,
          queryPieces_cons (uri.bytes.drop i), List.drop_drop, List.map_append, mergePairs,
          mergePairs, mergePairs, List.foldl_append, Nat.add_assoc]
      · have hd : uri.bytes.drop i = [] := List.drop_eq_nil_of_le (not_lt.mp hi)
        rw [parameterLoop, dif_neg hi, hd, queryPieces_nil]
        rfl

end Loop

def queryOf (uri : CString) : Option Bytes :=
  if '?'.toUInt8 ∈ uri.bytes then some (uri.bytes.dropWhile (· != '?'.toUInt8)).tail else none

section Call
variable (aprTableMergen : AprTable → Bytes → Bytes → AprTable) {uri : CString}

theorem getParametersFromUri_of_query (hq : '?'.toUInt8 ∈ uri.bytes) :
    getParametersFromUri aprTableMergen uri uri.length = .ok (0, some (mergePairs aprTableMergen []
      ((queryPieces (uri.bytes.dropWhile (· != '?'.toUInt8)).tail).map splitPiece))) := by
  have hmem := uri.memchr_eq (Nat.zero_add uri.length).le '?'.toUInt8
  rw [List.drop_zero, CString.length, List.take_length, if_pos hq] at hmem
  have hd : uri.bytes.drop ((uri.bytes.takeWhile (· != '?'.toUInt8)).length + 1) =
      (uri.bytes.dropWhile (· != '?'.toUInt8)).tail := by
    rw [← List.drop_drop, drop_length_takeWhile, List.drop_one]
  rw [getParametersFromUri, CString.length, hmem, ok_bind]
  dsimp only
  rw [← CString.length, parameterLoop_eq, ok_bind, Nat.zero_add, hd]
  rfl

theorem getParametersFromUri_of_no_query (hq : '?'.toUInt8 ∉ uri.bytes) :
    getParametersFromUri aprTableMergen uri uri.length = .ok (-1, none) := by
  have hmem := uri.memchr_eq (Nat.zero_add uri.length).le '?'.toUInt8
  rw [List.drop_zero, CString.length, List.take_length, if_neg hq] at hmem
  rw [getParametersFromUri, CString.length, hmem]
  rfl

theorem exists_getParametersFromUri (uri : CString) :
    ∃ r, getParametersFromUri aprTableMergen uri uri.length = .ok r := by
  by_cases hq : '?'.toUInt8 ∈ uri.bytes
  · exact ⟨_, getParametersFromUri_of_query aprTableMergen hq⟩
  · exact ⟨_, getParametersFromUri_of_no_query aprTableMergen hq⟩

end Call

/-- The parser's table is the reference table of the query string, and a URI without a query
leaves the table NULL. -/
theorem getParametersFromUri_eq_queryTable
    {aprTableMergen : AprTable → Bytes → Bytes → AprTable} (hmerges : Merges aprTableMergen)
    (uri : CString) :
    getParametersFromUri aprTableMergen uri uri.length = .ok (match queryOf uri with
      | some query => (0, some (queryTable query))
      | none => (-1, none)) := by
  rw [hmerges.eq_mergeEntry]
  unfold queryOf
  by_cases hq : '?'.toUInt8 ∈ uri.bytes
  · rw [if_pos hq, getParametersFromUri_of_query mergeEntry hq]
    rfl
  · rw [if_neg hq, getParametersFromUri_of_no_query mergeEntry hq]

theorem getParametersFromUri_merged :
    getParametersFromUri mergeEntry (CString.ofAscii "/i?a=b&;c&A==") 13 =
      .ok (0, some [(['a'.toUInt8], "b, =".toList.map Char.toUInt8), (['c'.toUInt8], [])]) :=
  (getParametersFromUri_eq_queryTable merges_mergeEntry (CString.ofAscii "/i?a=b&;c&A==")).trans
    (by decide +kernel)

end ModMp
