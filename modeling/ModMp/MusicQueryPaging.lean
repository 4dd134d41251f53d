import ModMp.MusicQueryPages
import ModMp.MusicQueryWords
import ModMp.Runs

/-!
# Paging through the rows of the server

The server reads the limit and the offset from the end of the URL. From a reset and a load on,
the events of the requests lead through the pages one after the other, and the query is complete
with all rows when no event is left.
-/

namespace ModMp
open Segments Runs

/-- The number that a decimal text stands for. -/
def number (t : Text) : ℕ := t.foldl (fun n c => 10 * n + (c.toNat - 48)) 0

/-- The limit and the offset at the end of a URL; the offset may be missing. -/
def limitAndOffset (url : Text) : ℕ × ℕ :=
  match (url.splitOn slash).reverse with
  | last :: key :: limit :: _ =>
      if key = text "offset" then (number limit, number last) else (number last, 0)
  | _ => (0, 0)

variable {ρ : Type}

/-- A server that holds `rows` and cuts them by the limit and the offset in the URL. -/
def pagingServer (name : Text) (rows : List ρ) (q : MusicQuery ρ) : Response ρ :=
  arrayResponse name (pageRows rows (limitAndOffset q.url).1 (limitAndOffset q.url).2)

theorem number_decimal (n : ℕ) : number (decimal n) = n := by
  have hdigit : ∀ (l : List Char) (m : ℕ), (∀ d ∈ l, d.isDigit) →
      l.foldl (fun n d => 10 * n + ((unit d).toNat - 48)) m =
        l.foldl (fun n d => 10 * n + (d.toNat - '0'.toNat)) m := by
    intro l m hl
    apply List.foldl_ext
    intro m d hd
    have hrange : d.toNat ≤ 57 := by
      have hisDigit := hl d hd
      simp [Char.isDigit, UInt32.le_iff_toNat_le] at hisDigit
      exact hisDigit.2
    have hunit : (unit d).toNat = d.toNat := by
      rw [unit, UInt16.toNat_ofNat_of_lt']
      exact hrange.trans_lt (by decide)
    rw [hunit]
    rfl
  rw [number, decimal, List.foldl_map, hdigit _ _ (fun d hd =>
    Nat.isDigit_of_mem_toDigits (by norm_num) (by norm_num) hd), ← Nat.ofDigitChars_eq_foldl,
    Nat.ofDigitChars_ten_toDigits]

theorem unpair_limitFields (count : ℕ) {p : QueryParameters} (hlimit : 0 < p.numResults) :
    unpair (limitFields count p) = [text "limit", decimal p.numResults] ++
      if 0 < count * p.numResults then
        [text "offset", decimal (count * p.numResults)] else [] := by
  rw [limitFields, if_pos hlimit]
  by_cases hoffset : 0 < count * p.numResults
  · rw [if_pos ⟨hlimit, hoffset⟩, if_pos hoffset]
    rfl
  · rw [if_neg (fun h => hoffset h.2), if_neg hoffset]
    rfl

theorem reverse_splitOn_setUrl (hostname : Word) (count : ℕ) {p : QueryParameters}
    (hlimit : 0 < p.numResults) : ∃ w ws, ((setUrl hostname count p).splitOn slash).reverse =
      (unpair (limitFields count p)).reverse ++ w :: ws := by
  obtain ⟨base, hbase⟩ : ∃ base, setUrl hostname count p =
      base ++ fieldsText (limitFields count p) := by
    rw [setUrl_eq, setFields, fieldsText_append, ← List.append_assoc]
    exact ⟨_, rfl⟩
  obtain ⟨w, ws, hws⟩ := List.exists_cons_of_ne_nil
    (mt List.reverse_eq_nil_iff.mp (List.splitOn_ne_nil slash base))
  have hclear : ∀ n, slash ∉ decimal n := fun n h => (clear_decimal n slash h).1 rfl
  have hwords : ∀ w ∈ unpair (limitFields count p), slash ∉ w := by
    rw [unpair_limitFields count hlimit]
    intro w hw
    rcases List.mem_append.mp hw with hw | hw
    · rcases List.mem_pair.mp hw with rfl | rfl
      · decide
      · exact hclear _
    · rcases List.mem_pair.mp (List.mem_ite_nil_right.mp hw).2 with rfl | rfl
      · decide
      · exact hclear _
  exact ⟨w, ws, by rw [hbase, fieldsText, splitOn_append_join hwords, List.reverse_append, hws]⟩

theorem limitAndOffset_setUrl (hostname : Word) (count : ℕ) {p : QueryParameters}
    (hlimit : 0 < p.numResults) :
    limitAndOffset (setUrl hostname count p) = (p.numResults, count * p.numResults) := by
  obtain ⟨w, ws, hws⟩ := reverse_splitOn_setUrl hostname count hlimit
  rw [limitAndOffset, hws, unpair_limitFields count hlimit]
  rcases Nat.eq_zero_or_pos (count * p.numResults) with hzero | hoffset
  · rw [if_neg hzero.not_gt, List.append_nil]
    change (if text "limit" = text "offset" then _ else _) = _
    rw [if_neg (by decide), number_decimal, hzero]
  · rw [if_pos hoffset]
    change (if text "offset" = text "offset" then _ else _) = _
    rw [if_pos rfl, number_decimal, number_decimal]

theorem pagingServer_serves (name : Text) (rows : List ρ) {p : QueryParameters}
    (hlimit : 0 < p.numResults) : Serves (pagingServer name rows) name rows p := by
  intro q _ hurl
  rw [pagingServer, hurl, limitAndOffset_setUrl _ _ hlimit]

def Session.Done (s : Session ρ) : Prop := ∀ request ∈ s.requests, request.readyState = 4

/-- The number of last events of requests. -/
def responses (l : List (ℕ × ℕ)) : ℕ := (l.filter (fun e => e.2 == 4)).length

/-- The events of the requests, without a further reset. -/
def EventStep (server : MusicQuery ρ → Response ρ) (s : Session ρ) (e : ℕ × ℕ)
    (s' : Session ρ) : Prop := s.event server e.1 e.2 = some s'

/-- After `count` pages the query waits for one more or is complete; the earlier requests, and those
from `before` the first page, have no events left. -/
structure Paging (before : List (Request ρ)) (hostname : Word) (p : QueryParameters) (name : Text)
    (rows : List ρ) (l : List (ℕ × ℕ)) (s : Session ρ) : Prop where
  host : s.query.hostname = hostname
  params : s.query.parameters = p
  requests : ∃ earlier newest, s.requests = before ++ earlier ++ [newest] ∧
    earlier.map Request.url = (List.range s.query.count).map (fun k => setUrl hostname k p) ∧
    (∀ request ∈ before ++ earlier, request.readyState = 4) ∧ Loaded name rows s newest ∧
    (newest.readyState ≠ 4 → responses l = s.query.count) ∧
    (newest.readyState = 4 → responses l = s.query.count + 1 ∧ s.completions = 1)

theorem responses_append (l : List (ℕ × ℕ)) (i readyState : ℕ) :
    responses (l ++ [(i, readyState)]) = responses l + if readyState = 4 then 1 else 0 := by
  rw [responses, List.filter_append, List.length_append]
  by_cases h : readyState = 4
  · rw [if_pos h, h]
    rfl
  · rw [if_neg h, List.filter_cons_of_neg (by simpa using h)]
    rfl

namespace Paging

variable {server : MusicQuery ρ → Response ρ} {before : List (Request ρ)} {hostname : Word}
  {p : QueryParameters} {name : Text} {rows : List ρ} {l : List (ℕ × ℕ)} {s s' : Session ρ}

theorem start (hserves : Serves server name rows p) (hobjects : p.objects = [name])
    (hdone : s.Done) :
    Paging s.requests s.query.hostname p name rows [] (s.resetLoad server p) := by
  refine ⟨rfl, rfl, ?_⟩
  obtain ⟨request, hstate, hrequests, hloaded⟩ := loaded_load
    (s := { s.reset with query := { s.reset.query with parameters := p } })
    hserves hobjects (by simp [Session.reset]) rfl (by simp [Session.reset, arrayOf])
  refine ⟨[], request, ?_, rfl, ?_, hloaded, fun _ => rfl, ?_⟩
  · rw [List.append_nil]
    exact hrequests
  · rw [List.append_nil]
    exact hdone
  · intro hfour
    omega

theorem step (hserves : Serves server name rows p) (h : Paging before hostname p name rows l s)
    {e : ℕ × ℕ} (hs : EventStep server s e s') :
    Paging before hostname p name rows (l ++ [e]) s' := by
  obtain ⟨i, readyState⟩ := e
  obtain ⟨hhost, hparams, earlier, newest, hrequests, hurls, hearlier, hloaded, hwait, -⟩ := h
  obtain ⟨hopen, hle, rfl⟩ := Session.event_of_newest hrequests hearlier hs
  by_cases hlast : readyState = 4
  · subst hlast
    have hserves' : Serves server name rows s.query.parameters := by
      rw [hparams]
      exact hserves
    obtain ⟨hparams', hhost', hnext⟩ := process_response hserves' hloaded hopen.ne
      { s with requests := before ++ earlier ++ [{ newest with readyState := 4 }] } rfl rfl
      List.getLast?_concat
    refine ⟨hhost'.trans hhost, hparams'.trans hparams, ?_⟩
    have hresponses : responses (l ++ [(i, 4)]) = s.query.count + 1 := by
      rw [responses_append, if_pos rfl, hwait hopen.ne]
    rcases hnext with ⟨hrequests', hcount, hcompletions, hloaded'⟩ |
      ⟨request, hstate, hrequests', hcount, hloaded'⟩
    · refine ⟨earlier, _, hrequests', by rw [hcount, hurls], hearlier, hloaded',
        fun hne => absurd rfl hne, fun _ => ⟨by rw [hresponses, hcount], hcompletions⟩⟩
    · refine ⟨earlier ++ [{ newest with readyState := 4 }], request, ?_, ?_, ?_, hloaded',
        fun _ => by rw [hresponses, hcount], ?_⟩
      · rw [hrequests', ← List.append_assoc]
      · rw [List.map_append, hurls, hcount, List.range_succ, List.map_append, List.map_singleton,
          List.map_singleton, hloaded.url, hhost, hparams]
      · rw [← List.append_assoc, List.forall_mem_append]
        exact ⟨hearlier, List.forall_mem_singleton.mpr rfl⟩
      · intro hfour
        omega
  · rw [Session.process_of_ne List.getLast?_concat hlast]
    refine ⟨hhost, hparams, earlier, _, rfl, hurls, hearlier,
      hloaded.waiting hopen.ne hle hlast List.getLast?_concat, ?_, fun h => absurd h hlast⟩
    intro _
    rw [responses_append, if_neg hlast]
    exact hwait hopen.ne

theorem run (hserves : Serves server name rows p) (hobjects : p.objects = [name])
    (hdone : s.Done) (h : Run (EventStep server) (s.resetLoad server p) l s') :
    Paging s.requests s.query.hostname p name rows l s' :=
  h.history (I := Paging s.requests s.query.hostname p name rows) (start hserves hobjects hdone)
    (fun _ _ _ _ hpaging hs => hpaging.step hserves hs)

end Paging

/-- From a reset and a load on, when no event of an earlier request is left, the requests ask for
the offsets 0, L, 2L and so on, and no more than N / L + 1 of them. The events go on until that
many have been answered, and then `onComplete` has been called once and the results are the N
rows. -/
theorem paging_fetches_all (rows : List ρ) {name : Text} {p : QueryParameters}
    (hobjects : p.objects = [name]) (hlimit : 1 ≤ p.numResults) {l : List (ℕ × ℕ)}
    {s₀ s : Session ρ} (hstart : s₀.Done)
    (h : Run (EventStep (pagingServer name rows)) (s₀.resetLoad (pagingServer name rows) p) l s) :
    ∃ fetched, s.requests = s₀.requests ++ fetched ∧
      fetched.map (fun request => limitAndOffset request.url) =
        (List.range fetched.length).map (fun k => (p.numResults, k * p.numResults)) ∧
      fetched.length ≤ rows.length / p.numResults + 1 ∧
      (s.Done ↔ responses l = rows.length / p.numResults + 1) ∧
      (¬ s.Done → s.completions = 0 ∧
        ∃ i s', EventStep (pagingServer name rows) s (i, 4) s') ∧
      (s.Done → fetched.length = rows.length / p.numResults + 1 ∧ s.completions = 1 ∧
        s.query.results name = some (.array rows)) := by
  have hserves := pagingServer_serves name rows hlimit
  obtain ⟨hhost, hparams, earlier, newest, hrequests, hurls, hearlier, hloaded, hwait, hend⟩ :=
    Paging.run hserves hobjects hstart h
  have hlimit' : 0 < s.query.parameters.numResults := hparams.symm ▸ hlimit
  have hlength : (earlier ++ [newest]).length = s.query.count + 1 := by
    rw [List.length_append, List.length_singleton, ← List.length_map Request.url, hurls,
      List.length_map, List.length_range]
  have hcount := hloaded.count_le hlimit'
  have hlast := hloaded.count_eq hlimit'
  rw [hparams] at hcount hlast
  have hdone : s.Done ↔ newest.readyState = 4 := by
    rw [Session.Done, hrequests, List.forall_mem_append, List.forall_mem_singleton]
    exact and_iff_right hearlier
  refine ⟨earlier ++ [newest], by rw [hrequests, List.append_assoc], ?_, by omega, ?_, ?_, ?_⟩
  · have hall : (earlier ++ [newest]).map Request.url =
        (List.range (earlier ++ [newest]).length).map
          (fun k => setUrl s₀.query.hostname k p) := by
      rw [hlength, List.map_append, hurls, List.map_singleton, hloaded.url, hhost, hparams,
        List.range_succ, List.map_append, List.map_singleton]
    have hmap := congrArg (List.map limitAndOffset) hall
    rw [List.map_map, List.map_map] at hmap
    apply hmap.trans
    exact List.map_congr_left (fun k _ => limitAndOffset_setUrl _ k hlimit)
  · rw [hdone]
    constructor
    · intro hfour
      rw [(hend hfour).1, hlast hfour]
    · intro hresponses
      by_contra hne
      have heq := hwait hne
      omega
  · rw [hdone]
    intro hne
    have hopen : newest.readyState < 4 := lt_of_le_of_ne hloaded.state hne
    have hnewest : s.requests[(s₀.requests ++ earlier).length]? = some newest := by
      rw [hrequests, List.getElem?_concat_length]
    exact ⟨(hloaded.fetching hne).1, _, _,
      Session.event_of_open hnewest hopen hopen.le le_rfl⟩
  · rw [hdone]
    intro hfour
    exact ⟨by rw [hlength, hlast hfour], (hend hfour).2, (hloaded.complete hfour).1⟩

def pagedParameters : QueryParameters :=
  { searchParameters [] with songTitle := none, numResults := 2 }

def pagedSession (rows : List ℕ) : Session ℕ :=
  (Session.create exampleHost pagedParameters).resetLoad (pagingServer (text "songs") rows)
    pagedParameters

/-- Three rows are fetched with two requests. -/
theorem paging_fetches_three_rows : ∃ s,
    Run (EventStep (pagingServer (text "songs") [1, 2, 3])) (pagedSession [1, 2, 3])
      [(0, 2), (0, 4), (1, 4)] s ∧
    s.requests.length = 2 ∧ s.completions = 1 ∧
    s.query.results (text "songs") = some (.array [1, 2, 3]) := by
  have hsome : (execute (fun s e => s.event (pagingServer (text "songs") [1, 2, 3]) e.1 e.2)
      (pagedSession [1, 2, 3]) [(0, 2), (0, 4), (1, 4)]).isSome = true := by
    decide +kernel
  obtain ⟨s, hs⟩ := Option.isSome_iff_exists.mp hsome
  have hrun := run_of_execute hs
  have hstart : (Session.create exampleHost pagedParameters : Session ℕ).Done :=
    List.forall_mem_nil _
  obtain ⟨fetched, hrequests, -, -, hdone, -, hresults⟩ :=
    paging_fetches_all [1, 2, 3] rfl (by decide) hstart hrun
  obtain ⟨hlength, hcompletions, hrows⟩ := hresults (hdone.mpr (by decide))
  exact ⟨s, hrun, (congrArg List.length hrequests).trans hlength, hcompletions, hrows⟩

end ModMp
