import ModMp.IndexerAndCommand

/-!
# Routing with and without a query

The indexer and the command route a request. A path is compared with the same path followed by a
query: after a second slash the query is cut off, up to the narrowing of the sizes, and without one
it becomes part of the indexer or even a command.
-/

namespace ModMp
open CLib

variable {aprTableMergen : AprTable → Bytes → Bytes → AprTable} {uri : CString}

/-- The strings that route a request. -/
def routing (aprTableMergen : AprTable → Bytes → Bytes → AprTable) (uri : CString)
    (methodNum : ℤ) : Except Fault (Option Bytes × Option Bytes) := do
  let r ← inputInit aprTableMergen (some uri) methodNum
  return (r.2.indexerString, r.2.commandString)

theorem routing_eq_ok_iff {methodNum : ℤ} {r : Option Bytes × Option Bytes} :
    routing aprTableMergen uri methodNum = .ok r ↔ ∃ indexer command,
      getIndexerFromUri uri (toInt uri.length) = .ok indexer ∧
      getCommandFromUri uri (toInt uri.length) = .ok command ∧ r = (indexer.2, command.2) := by
  constructor
  · intro h
    obtain ⟨input, hinput, h⟩ := exists_of_bind_eq_ok h
    obtain ⟨indexer, command, hi, hc, hi', hc'⟩ := helpers_of_inputInit hinput
    rw [hi', hc'] at h
    exact ⟨indexer, command, hi, hc, (Except.ok.inj h).symm⟩
  · rintro ⟨indexer, command, hi, hc, rfl⟩
    obtain ⟨parameters, h⟩ := inputInit_of_helpers methodNum hi hc
    rw [routing, h, ok_bind, pure_eq_ok]

/-- The path `p` followed by `?` and the query `q`. -/
def withQuery (p q : CString) : CString where
  bytes := p.bytes ++ '?'.toUInt8 :: q.bytes
  nul_free := by
    simp only [List.mem_append, List.mem_cons, not_or]
    exact ⟨p.nul_free, by decide, q.nul_free⟩

/-- The indexer that ends at a second slash after `name`, for a narrowed URI length `n`. -/
def cutName (name : Bytes) (n : ℤ) : Except Fault (Option Bytes) :=
  if n < toInt name.length then
    .ok (if 1 < n then some (name.take (n - 1).toNat) else none)
  else if name = [] then .ok none
  else if 0 ≤ toInt name.length then .ok (some (name.take (toInt name.length).toNat))
  else .error (.copy 1 (toInt name.length))

/-- Two narrowed lengths cut a name at the same place. -/
def SameCut (name : Bytes) (n m : ℤ) : Prop :=
  name = [] ∨ (0 ≤ toInt name.length ∧ toInt name.length ≤ n ∧ toInt name.length ≤ m) ∨
    (n < toInt name.length ∧ m < toInt name.length ∧ max n 1 = max m 1)

theorem getIndexerFromUri_eq_cutName {u v : Bytes}
    (h : uri.bytes.drop 1 = u ++ '/'.toUInt8 :: v) (hu : '/'.toUInt8 ∉ u) {s : Option Bytes} :
    (∃ status, getIndexerFromUri uri (toInt uri.length) = .ok (status, s)) ↔
      cutName u (toInt uri.length) = .ok s := by
  have hlen := uri.length_of_split h
  have hpos : 1 ≤ uri.length := by omega
  have hule := toInt_le_self (Int.natCast_nonneg u.length)
  unfold cutName
  by_cases hlt : toInt uri.length < toInt u.length
  · rw [if_pos hlt, getIndexerFromUri_of_end hpos (toInt_range _).2
      (toInt_le_self (Int.natCast_nonneg _)) (.inr ⟨u, v, h, hu, hlt⟩), h,
      List.take_append_of_le_length (by omega)]
    split_ifs with h1 <;> simp
  · rw [if_neg hlt, getIndexerFromUri_of_slash h hu (not_lt.mp hlt)]
    split_ifs <;> simp

/-- A prefix of `l` cut at a narrowed length, NULL when nothing is left. -/
def cutAt (l : Bytes) (n : ℤ) : Option Bytes :=
  if 1 < n then some (l.take (n - 1).toNat) else none

theorem cutAt_eq_iff {l r : Bytes} {n m : ℤ} (hn : n ≤ 1 + l.length)
    (hm : m ≤ 1 + (l ++ r).length) : cutAt l n = cutAt (l ++ r) m ↔ max n 1 = max m 1 := by
  unfold cutAt
  by_cases h1 : 1 < n <;> by_cases h2 : 1 < m
  · rw [if_pos h1, if_pos h2, Option.some.injEq]
    constructor
    · intro h
      have hl := congrArg List.length h
      rw [List.length_take_of_le (by omega), List.length_take_of_le (by omega)] at hl
      omega
    · intro h
      have hnm : n = m := by omega
      subst hnm
      exact (List.take_append_of_le_length (by omega)).symm
  · rw [if_pos h1, if_neg h2]
    simp
    omega
  · rw [if_neg h1, if_pos h2]
    simp
    omega
  · rw [if_neg h1, if_neg h2]
    simp
    omega

theorem cutName_nil (n : ℤ) : cutName [] n = .ok none := by
  rw [cutName, show toInt (([] : Bytes).length : ℤ) = 0 by decide]
  by_cases hn : n < 0
  · rw [if_pos hn, if_neg (by omega)]
  · rw [if_neg hn, if_pos rfl]

theorem cutName_of_lt {name : Bytes} {n : ℤ} (h : n < toInt name.length) :
    cutName name n = .ok (cutAt name n) := by
  rw [cutName, if_pos h, cutAt]

theorem cutName_of_le {name : Bytes} (hne : name ≠ []) {n : ℤ} (h : toInt name.length ≤ n) :
    cutName name n = if 0 ≤ toInt name.length
      then .ok (some (name.take (toInt name.length).toNat))
      else .error (.copy 1 (toInt name.length)) := by
  rw [cutName, if_neg (not_lt.mpr h), if_neg hne]

theorem cutName_ne_of_lt_of_le {name : Bytes} (hne : name ≠ []) {n m : ℤ}
    (hn : n < toInt name.length) (hm : toInt name.length ≤ m) (s : Option Bytes) :
    ¬ (cutName name n = .ok s ∧ cutName name m = .ok s) := by
  intro h
  obtain ⟨hcut, hwhole⟩ := h
  have hle := toInt_le_self (Int.natCast_nonneg name.length)
  rw [cutName_of_lt hn, Except.ok.injEq] at hcut
  rw [cutName_of_le hne hm] at hwhole
  split_ifs at hwhole
  rw [Except.ok.injEq, ← hcut] at hwhole
  unfold cutAt at hwhole
  split_ifs at hwhole
  have hlength := congrArg List.length (Option.some.inj hwhole)
  rw [List.length_take_of_le (by omega), List.length_take_of_le (by omega)] at hlength
  omega

theorem cutName_same_iff (name : Bytes) (n m : ℤ) :
    (∃ s, cutName name n = .ok s ∧ cutName name m = .ok s) ↔ SameCut name n m := by
  by_cases hnil : name = []
  · subst hnil
    exact ⟨fun _ => .inl rfl, fun _ => ⟨none, cutName_nil n, cutName_nil m⟩⟩
  have hle := toInt_le_self (Int.natCast_nonneg name.length)
  rw [SameCut, or_iff_right hnil]
  by_cases hn : n < toInt name.length <;> by_cases hm : m < toInt name.length
  · have hiff := cutAt_eq_iff (l := name) (r := []) (n := n) (m := m) (by omega) (by simp; omega)
    rw [List.append_nil] at hiff
    simp only [cutName_of_lt hn, cutName_of_lt hm, Except.ok.injEq, exists_eq_left']
    rw [eq_comm, hiff]
    constructor
    · exact fun h => .inr ⟨hn, hm, h⟩
    · intro h
      omega
  · apply iff_of_false
    · intro h
      obtain ⟨s, hs⟩ := h
      exact cutName_ne_of_lt_of_le hnil hn (not_lt.mp hm) s hs
    · omega
  · apply iff_of_false
    · intro h
      obtain ⟨s, hs⟩ := h
      exact cutName_ne_of_lt_of_le hnil hm (not_lt.mp hn) s hs.symm
    · omega
  · rw [cutName_of_le hnil (not_lt.mp hn), cutName_of_le hnil (not_lt.mp hm)]
    split_ifs with h0
    · exact iff_of_true ⟨_, rfl, rfl⟩ (.inl ⟨h0, not_lt.mp hn, not_lt.mp hm⟩)
    · apply iff_of_false
      · intro h
        obtain ⟨s, hs, -⟩ := h
        cases hs
      · omega

/-- The query leaves the routing of the path `'/' :: rest` alone. Below 2^31 bytes this says that
the path has a second slash. -/
def QueryIgnored (rest : Bytes) (p q : CString) : Prop :=
  if '/'.toUInt8 ∈ rest then
    0 ≤ toInt (rest.dropWhile (· != '/'.toUInt8)).tail.length ∧
      SameCut (rest.takeWhile (· != '/'.toUInt8)) (toInt p.length) (toInt (withQuery p q).length)
  else '/'.toUInt8 ∉ q.bytes ∧ max (toInt p.length) 1 = max (toInt (withQuery p q).length) 1

/-- Of URIs that fit into an `int` exactly those with a second slash lose their query. -/
theorem queryIgnored_short_iff {rest : Bytes} {p q : CString}
    (hp : p.bytes = '/'.toUInt8 :: rest) (hshort : (withQuery p q).length < 2 ^ 31) :
    QueryIgnored rest p q ↔ '/'.toUInt8 ∈ rest := by
  have hlen : (withQuery p q).length = rest.length + q.length + 2 := by
    simp only [CString.length, withQuery, hp, List.length_append, List.length_cons]
    omega
  have hn : toInt p.length = rest.length + 1 := by
    rw [CString.length, hp, List.length_cons, toInt_natCast (by omega)]
    push_cast
    rfl
  have hname := (List.takeWhile_sublist (l := rest) (· != '/'.toUInt8)).length_le
  have hcommand : (rest.dropWhile (· != '/'.toUInt8)).tail.length ≤ rest.length := by
    rw [List.length_tail]
    have := (List.dropWhile_sublist (l := rest) (· != '/'.toUInt8)).length_le
    omega
  unfold QueryIgnored
  rw [hn, toInt_natCast hshort, hlen]
  split_ifs with h
  · rw [SameCut, toInt_natCast (by omega), toInt_natCast (by omega)]
    have hp : (((rest.takeWhile (· != '/'.toUInt8)).length : ℕ) : ℤ) ≤ rest.length + 1 := by
      omega
    have hpq : (((rest.takeWhile (· != '/'.toUInt8)).length : ℕ) : ℤ) ≤
        ((rest.length + q.length + 2 : ℕ) : ℤ) := by
      push_cast
      omega
    exact iff_of_true
      ⟨Int.natCast_nonneg _, .inr (.inl ⟨Int.natCast_nonneg _, hp, hpq⟩)⟩ h
  · apply iff_of_false _ h
    intro hmax
    have hsame := hmax.2
    push_cast at hsame
    omega

theorem withQuery_drop_one {p : CString} (q : CString) (hpos : 1 ≤ p.length) :
    (withQuery p q).bytes.drop 1 = p.bytes.drop 1 ++ '?'.toUInt8 :: q.bytes :=
  List.drop_append_of_le_length hpos

theorem routing_same_of_slash {p q : CString} {u v : Bytes}
    (hp : p.bytes.drop 1 = u ++ '/'.toUInt8 :: v) (hu : '/'.toUInt8 ∉ u)
    (hpq : '?'.toUInt8 ∉ p.bytes.drop 1) (methodNum : ℤ) :
    (∃ r, routing aprTableMergen p methodNum = .ok r ∧
        routing aprTableMergen (withQuery p q) methodNum = .ok r) ↔
      0 ≤ toInt v.length ∧ SameCut u (toInt p.length) (toInt (withQuery p q).length) := by
  obtain ⟨hqu, hqv⟩ : '?'.toUInt8 ∉ u ∧ '?'.toUInt8 ∉ v := by
    rw [hp] at hpq
    simp only [List.mem_append, List.mem_cons, not_or] at hpq
    exact ⟨hpq.1, hpq.2.2⟩
  have hlen := p.length_of_split hp
  have hpos : 1 ≤ p.length := by omega
  have hpq' : (withQuery p q).bytes.drop 1 =
      u ++ '/'.toUInt8 :: (v ++ '?'.toUInt8 :: q.bytes) := by
    rw [withQuery_drop_one q hpos, hp, List.append_assoc, List.cons_append]
  have hc := getCommandFromUri_of_path hp hu hqu (takeWhile_ne_of_notMem hqv).symm
  have hc' := getCommandFromUri_of_path hpq' hu hqu (takeWhile_ne_append hqv).symm
  rw [← cutName_same_iff]
  constructor
  · rintro ⟨r, hr, hr'⟩
    obtain ⟨indexer, command, hi, hcr, rfl⟩ := routing_eq_ok_iff.mp hr
    obtain ⟨indexer', command', hi', _, heq⟩ := routing_eq_ok_iff.mp hr'
    have hs : indexer.2 = indexer'.2 := congrArg Prod.fst heq
    constructor
    · by_contra! hneg
      rw [hc, if_neg (not_le.mpr hneg)] at hcr
      cases hcr
    · exact ⟨indexer.2, (getIndexerFromUri_eq_cutName hp hu).mp ⟨indexer.1, hi⟩,
        hs ▸ (getIndexerFromUri_eq_cutName hpq' hu).mp ⟨indexer'.1, hi'⟩⟩
  · rintro ⟨hv, s, hs, hs'⟩
    rw [if_pos hv] at hc hc'
    obtain ⟨status, hi⟩ := (getIndexerFromUri_eq_cutName hp hu).mpr hs
    obtain ⟨status', hi'⟩ := (getIndexerFromUri_eq_cutName hpq' hu).mpr hs'
    exact ⟨_, routing_eq_ok_iff.mpr ⟨_, _, hi, hc, rfl⟩,
      routing_eq_ok_iff.mpr ⟨_, _, hi', hc', rfl⟩⟩

theorem getIndexerFromUri_eq_cutAt (hpos : 1 ≤ uri.length) (h : '/'.toUInt8 ∉ uri.bytes.drop 1) :
    ∃ status, getIndexerFromUri uri (toInt uri.length) =
      .ok (status, cutAt (uri.bytes.drop 1) (toInt uri.length)) := by
  rw [getIndexerFromUri_of_end hpos (toInt_range _).2 (toInt_le_self (Int.natCast_nonneg _))
    (.inl h), cutAt]
  split_ifs
  · exact ⟨0, rfl⟩
  · exact ⟨-1, rfl⟩

theorem routing_of_no_slash (aprTableMergen : AprTable → Bytes → Bytes → AprTable)
    (hpos : 1 ≤ uri.length) (h : '/'.toUInt8 ∉ uri.bytes.drop 1) (methodNum : ℤ) :
    routing aprTableMergen uri methodNum =
      .ok (cutAt (uri.bytes.drop 1) (toInt uri.length), none) := by
  obtain ⟨status, hi⟩ := getIndexerFromUri_eq_cutAt hpos h
  have hc := getCommandFromUri_of_no_slash hpos h (toInt uri.length)
  exact routing_eq_ok_iff.mpr ⟨_, _, hi, hc, by dsimp only⟩

theorem routing_same_of_no_slash {p q : CString} (hpos : 1 ≤ p.length)
    (hp : '/'.toUInt8 ∉ p.bytes.drop 1) (methodNum : ℤ) :
    (∃ r, routing aprTableMergen p methodNum = .ok r ∧
        routing aprTableMergen (withQuery p q) methodNum = .ok r) ↔
      '/'.toUInt8 ∉ q.bytes ∧
        max (toInt p.length) 1 = max (toInt (withQuery p q).length) 1 := by
  have hlen : ∀ s : CString, 1 ≤ s.length → toInt s.length ≤ 1 + (s.bytes.drop 1).length := by
    intro s hs
    have hle := toInt_le_self (Int.natCast_nonneg s.length)
    rw [List.length_drop]
    unfold CString.length at hs hle ⊢
    omega
  have hpos' : 1 ≤ (withQuery p q).length := by
    rw [CString.length, withQuery, List.length_append, List.length_cons]
    omega
  have hdrop := withQuery_drop_one q hpos
  have hr := routing_of_no_slash aprTableMergen hpos hp methodNum
  have hmem : '/'.toUInt8 ∉ (withQuery p q).bytes.drop 1 ↔ '/'.toUInt8 ∉ q.bytes := by
    rw [hdrop]
    simp only [List.mem_append, List.mem_cons, not_or]
    exact ⟨fun h => h.2.2, fun h => ⟨hp, by decide, h⟩⟩
  have hcut := hlen _ hpos'
  rw [hdrop] at hcut
  rw [← cutAt_eq_iff (hlen p hpos) hcut, ← hdrop]
  constructor
  · rintro ⟨r, h, h'⟩
    have heq := Except.ok.inj (hr.symm.trans h)
    by_cases hslash : '/'.toUInt8 ∈ (withQuery p q).bytes.drop 1
    · obtain ⟨indexer, command, -, hc', hr'⟩ := routing_eq_ok_iff.mp h'
      obtain ⟨u, v, hu, hnu⟩ := List.eq_append_cons_of_mem hslash
      have hsome := getCommandFromUri_isSome hu hnu hc'
      rw [← (Prod.mk.inj (heq.trans hr')).2] at hsome
      exact absurd hsome (by simp)
    · have hquery := Except.ok.inj
        ((routing_of_no_slash aprTableMergen hpos' hslash methodNum).symm.trans h')
      exact ⟨hmem.mp hslash, (Prod.mk.inj (heq.trans hquery.symm)).1⟩
  · rintro ⟨hq, he⟩
    refine ⟨_, hr, ?_⟩
    rw [routing_of_no_slash aprTableMergen hpos' (hmem.mpr hq), he]

/-- Three runs, on a path and on the path with two queries, route alike exactly when both queries
are ignored. -/
theorem routing_same_iff (aprTableMergen : AprTable → Bytes → Bytes → AprTable)
    (p q₁ q₂ : CString) (rest : Bytes) (methodNum : ℤ)
    (hp : p.bytes = '/'.toUInt8 :: rest) (hq : '?'.toUInt8 ∉ p.bytes) :
    (∃ r, routing aprTableMergen p methodNum = .ok r ∧
      routing aprTableMergen (withQuery p q₁) methodNum = .ok r ∧
      routing aprTableMergen (withQuery p q₂) methodNum = .ok r) ↔
      QueryIgnored rest p q₁ ∧ QueryIgnored rest p q₂ := by
  have hdrop : p.bytes.drop 1 = rest := by rw [hp, List.drop_one, List.tail_cons]
  have hone : ∀ q, (∃ r, routing aprTableMergen p methodNum = .ok r ∧
      routing aprTableMergen (withQuery p q) methodNum = .ok r) ↔ QueryIgnored rest p q := by
    intro q
    unfold QueryIgnored
    by_cases hslash : '/'.toUInt8 ∈ rest
    · obtain ⟨u, v, h, hu⟩ := List.eq_append_cons_of_mem hslash
      rw [if_pos hslash, routing_same_of_slash (hdrop.trans h) hu (fun hm => hq
        (List.mem_of_mem_drop hm)), h, takeWhile_ne_append hu, ← drop_length_takeWhile,
        takeWhile_ne_append hu, List.drop_left, List.tail_cons]
    · rw [if_neg hslash, routing_same_of_no_slash (by simp [CString.length, hp]) (hdrop ▸ hslash)]
  rw [← hone q₁, ← hone q₂]
  constructor
  · rintro ⟨r, h, h₁, h₂⟩
    exact ⟨⟨r, h, h₁⟩, ⟨r, h, h₂⟩⟩
  · rintro ⟨⟨r, h, h₁⟩, ⟨s, h', h₂⟩⟩
    have hrs : r = s := Except.ok.inj (h.symm.trans h')
    exact ⟨r, h, h₁, hrs ▸ h₂⟩

theorem routing_same_two_queries :
    ∃ r, routing mergeEntry (CString.ofAscii "/i/c") 0 = .ok r ∧
      routing mergeEntry (withQuery (CString.ofAscii "/i/c") (CString.ofAscii "a=b")) 0 = .ok r ∧
      routing mergeEntry (withQuery (CString.ofAscii "/i/c") (CString.ofAscii "/x")) 0 = .ok r :=
  (routing_same_iff mergeEntry (CString.ofAscii "/i/c") (CString.ofAscii "a=b")
    (CString.ofAscii "/x")
    ("i/c".toList.map Char.toUInt8) 0 (by decide +kernel) (by decide +kernel)).mpr
    ⟨(queryIgnored_short_iff (by decide +kernel) (by decide +kernel)).mpr (by decide +kernel),
      (queryIgnored_short_iff (by decide +kernel) (by decide +kernel)).mpr (by decide +kernel)⟩

/-- Without a second slash the query becomes part of the indexer. -/
theorem query_changes_routing :
    routing mergeEntry (CString.ofAscii "/a") 0 = .ok (some ['a'.toUInt8], none) ∧
      routing mergeEntry (withQuery (CString.ofAscii "/a") (CString.ofAscii "x")) 0 =
        .ok (some ("a?x".toList.map Char.toUInt8), none) := by
  decide +kernel

end ModMp
