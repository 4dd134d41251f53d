import ModMp.MusicQuery

/-!
# The pages of one query

A query that was loaded has the rows of its earlier pages, and its newest request asks for the next
page, or it has got all rows and is complete. Processing a page leads from one of these to the next,
whatever the number of rows and the page size.
-/

namespace ModMp

variable {ρ : Type}

theorem length_pageRows {rows : List ρ} {limit offset : ℕ} (hlimit : 0 < limit) :
    (pageRows rows limit offset).length = min limit (rows.length - offset) := by
  rw [pageRows, if_neg hlimit.ne', List.length_take, List.length_drop]

theorem take_append_pageRows {rows : List ρ} {limit offset : ℕ} (hlimit : 0 < limit) :
    rows.take offset ++ pageRows rows limit offset = rows.take (offset + limit) := by
  rw [pageRows, if_neg hlimit.ne', ← List.take_add]

@[simp] theorem arrayOf_update (results : Text → Option (Field ρ)) (name : Text) (rows : List ρ) :
    arrayOf (Function.update results name (some (.array rows))) name = rows := by
  rw [arrayOf, Function.update_self]

/-- The server answers the requests of a query with the pages of `rows`. -/
def Serves (server : MusicQuery ρ → Response ρ) (name : Text) (rows : List ρ)
    (p : QueryParameters) : Prop :=
  ∀ q : MusicQuery ρ, q.parameters = p → q.url = setUrl q.hostname q.count p →
    server q = arrayResponse name (pageRows rows p.numResults (q.count * p.numResults))

namespace Session

variable {server : MusicQuery ρ → Response ρ} {s : Session ρ} {xmlhttp : Request ρ} {name : Text}
  {rows page : List ρ}

theorem process_of_ne (hlast : s.requests.getLast? = some xmlhttp)
    (hstate : xmlhttp.readyState ≠ 4) : s.process server = s := by
  rw [process, hlast]
  exact if_neg (fun h => hstate h.1)

theorem event_of_open {i readyState : ℕ} {request : Request ρ}
    (hrequest : s.requests[i]? = some request) (hopen : request.readyState < 4)
    (hle : request.readyState ≤ readyState) (hfour : readyState ≤ 4) :
    s.event server i readyState = some (process server { s with
      requests := s.requests.set i { request with readyState := readyState } }) := by
  rw [event, hrequest]
  exact if_pos ⟨hopen, hle, hfour⟩

theorem event_eq_some {i readyState : ℕ} {s' : Session ρ}
    (h : s.event server i readyState = some s') :
    ∃ request, s.requests[i]? = some request ∧ request.readyState < 4 ∧ readyState ≤ 4 ∧
      s' = process server { s with
        requests := s.requests.set i { request with readyState := readyState } } := by
  obtain ⟨request, hrequest, h⟩ := Option.bind_eq_some_iff.mp h
  split_ifs at h with hstate
  exact ⟨request, hrequest, hstate.1, hstate.2.2, (Option.some.inj h).symm⟩

theorem event_of_newest {earlier : List (Request ρ)} {newest : Request ρ}
    (hrequests : s.requests = earlier ++ [newest])
    (hearlier : ∀ request ∈ earlier, request.readyState = 4) {i readyState : ℕ} {s' : Session ρ}
    (h : s.event server i readyState = some s') :
    newest.readyState < 4 ∧ readyState ≤ 4 ∧ s' = process server { s with
      requests := earlier ++ [{ newest with readyState := readyState }] } := by
  obtain ⟨request, hrequest, hopen, hle, rfl⟩ := event_eq_some h
  rw [hrequests] at hrequest
  by_cases hi : i < earlier.length
  · rw [List.getElem?_append_left hi] at hrequest
    have hfour := hearlier request (List.mem_of_getElem? hrequest)
    omega
  · have hlength := not_lt.mp hi
    rw [List.getElem?_append_right hlength, List.getElem?_singleton] at hrequest
    split_ifs at hrequest with hzero
    cases hrequest
    rw [hrequests, List.set_append_right _ _ hlength, hzero, List.set_cons_zero]
    exact ⟨hopen, hle, rfl⟩

theorem process_array (hlast : s.requests.getLast? = some xmlhttp)
    (hstate : xmlhttp.readyState = 4) (hresponse : xmlhttp.response = arrayResponse name page)
    (hobjects : s.query.parameters.objects = [name]) :
    s.process server = s.proceed server (Function.update s.query.results name
      (some (.array (arrayOf s.query.results name ++ page)))) page.length := by
  have hobject : processObject (fun n => if n = name then some (.array page) else none)
      (s.query.results, 0) name = (Function.update s.query.results name
        (some (.array (arrayOf s.query.results name ++ page))), page.length) := by
    rw [processObject, if_pos rfl]
    dsimp only
    rw [Nat.zero_add]
  rw [process, hlast]
  dsimp only
  rw [if_pos ⟨hstate, by rw [hresponse]; rfl⟩, hresponse]
  dsimp only [arrayResponse]
  rw [hobjects, List.foldl_cons, List.foldl_nil, hobject]

end Session

/-- A loaded query with `xmlhttp` as its newest request, and how far it is with the rows. -/
structure Loaded (name : Text) (rows : List ρ) (s : Session ρ) (xmlhttp : Request ρ) : Prop where
  newest : s.requests.getLast? = some xmlhttp
  state : xmlhttp.readyState ≤ 4
  url : xmlhttp.url = setUrl s.query.hostname s.query.count s.query.parameters
  objects : s.query.parameters.objects = [name]
  response : xmlhttp.response = arrayResponse name
    (pageRows rows s.query.parameters.numResults (s.query.count * s.query.parameters.numResults))
  offset : s.query.count * s.query.parameters.numResults ≤ rows.length
  fetching : xmlhttp.readyState ≠ 4 → s.completions = 0 ∧
    arrayOf s.query.results name = rows.take (s.query.count * s.query.parameters.numResults)
  complete : xmlhttp.readyState = 4 → s.query.results name = some (.array rows) ∧
    (s.query.parameters.numResults = 0 ∨
      rows.length < (s.query.count + 1) * s.query.parameters.numResults)

section Loaded
variable {server : MusicQuery ρ → Response ρ} {s : Session ρ} {xmlhttp : Request ρ} {name : Text}
  {rows : List ρ}

theorem loaded_load (hserves : Serves server name rows s.query.parameters)
    (hobjects : s.query.parameters.objects = [name])
    (hoffset : s.query.count * s.query.parameters.numResults ≤ rows.length)
    (hcompletions : s.completions = 0)
    (hrows : arrayOf s.query.results name =
      rows.take (s.query.count * s.query.parameters.numResults)) :
    ∃ request : Request ρ, request.readyState = 1 ∧
      (s.load server).requests = s.requests ++ [request] ∧
      Loaded name rows (s.load server) request := by
  refine ⟨_, rfl, rfl, ?_⟩
  refine ⟨List.getLast?_concat, by norm_num, rfl, hobjects, ?_, hoffset,
    fun _ => ⟨hcompletions, hrows⟩, ?_⟩
  · exact hserves _ rfl rfl
  · intro hstate
    cases hstate

theorem Loaded.count_le (h : Loaded name rows s xmlhttp)
    (hlimit : 0 < s.query.parameters.numResults) :
    s.query.count ≤ rows.length / s.query.parameters.numResults :=
  (Nat.le_div_iff_mul_le hlimit).mpr h.offset

theorem Loaded.count_eq (h : Loaded name rows s xmlhttp)
    (hlimit : 0 < s.query.parameters.numResults) (hstate : xmlhttp.readyState = 4) :
    s.query.count = rows.length / s.query.parameters.numResults := by
  have hlast := (h.complete hstate).2.resolve_left hlimit.ne'
  have hlt : rows.length / s.query.parameters.numResults < s.query.count + 1 :=
    (Nat.div_lt_iff_lt_mul hlimit).mpr hlast
  have hle := h.count_le hlimit
  omega

theorem Loaded.of_newest (h : Loaded name rows s xmlhttp) {requests : List (Request ρ)}
    (hnewest : requests.getLast? = some xmlhttp) :
    Loaded name rows { s with requests := requests } xmlhttp where
  newest := hnewest
  state := h.state
  url := h.url
  objects := h.objects
  response := h.response
  offset := h.offset
  fetching := h.fetching
  complete := h.complete

theorem Loaded.waiting (h : Loaded name rows s xmlhttp) (hfetching : xmlhttp.readyState ≠ 4)
    {readyState : ℕ} (hstate : readyState ≤ 4) (hwaiting : readyState ≠ 4)
    {requests : List (Request ρ)}
    (hnewest : requests.getLast? = some { xmlhttp with readyState := readyState }) :
    Loaded name rows { s with requests := requests }
      { xmlhttp with readyState := readyState } where
  newest := hnewest
  state := hstate
  url := h.url
  objects := h.objects
  response := h.response
  offset := h.offset
  fetching _ := h.fetching hfetching
  complete hfour := absurd hfour hwaiting

/-- What the page at an offset says about the rows behind it. -/
theorem pageRows_cases (rows : List ρ) (limit count : ℕ) (hoffset : count * limit ≤ rows.length) :
    (limit = 0 ∨ rows.length < (count + 1) * limit) ∧
        ((pageRows rows limit (count * limit)).length = 0 ∨
          limit > (pageRows rows limit (count * limit)).length ∨ limit = 0) ∧
        rows.take (count * limit) ++ pageRows rows limit (count * limit) = rows ∨
      (count + 1) * limit ≤ rows.length ∧
        ¬ ((pageRows rows limit (count * limit)).length = 0 ∨
          limit > (pageRows rows limit (count * limit)).length ∨ limit = 0) ∧
        rows.take (count * limit) ++ pageRows rows limit (count * limit) =
          rows.take ((count + 1) * limit) := by
  rcases Nat.eq_zero_or_pos limit with rfl | hlimit
  · left
    refine ⟨.inl rfl, .inr (.inr rfl), ?_⟩
    rw [Nat.mul_zero, List.take_zero, pageRows, if_pos rfl, List.nil_append]
  · rw [length_pageRows hlimit, take_append_pageRows hlimit, ← Nat.succ_mul]
    by_cases hfull : (count + 1) * limit ≤ rows.length
    · right
      have hspace : limit ≤ rows.length - count * limit := by
        rw [Nat.succ_mul] at hfull
        omega
      refine ⟨hfull, ?_, rfl⟩
      rw [min_eq_left hspace]
      omega
    · left
      have hspace : rows.length - count * limit < limit := by
        rw [Nat.succ_mul] at hfull
        omega
      refine ⟨.inr (not_le.mp hfull), ?_, List.take_of_length_le (not_le.mp hfull).le⟩
      rw [min_eq_right hspace.le]
      exact .inr (.inl hspace)

/-- The last response of a request completes the query or loads its next page. -/
theorem process_response (hserves : Serves server name rows s.query.parameters)
    (h : Loaded name rows s xmlhttp) (hfetching : xmlhttp.readyState ≠ 4) (s' : Session ρ)
    (hquery : s'.query = s.query) (hcompletions : s'.completions = s.completions)
    (hnewest : s'.requests.getLast? = some { xmlhttp with readyState := 4 }) :
    (s'.process server).query.parameters = s.query.parameters ∧
    (s'.process server).query.hostname = s.query.hostname ∧
    ((s'.process server).requests = s'.requests ∧
        (s'.process server).query.count = s.query.count ∧ (s'.process server).completions = 1 ∧
        Loaded name rows (s'.process server) { xmlhttp with readyState := 4 } ∨
      ∃ request : Request ρ, request.readyState = 1 ∧
        (s'.process server).requests = s'.requests ++ [request] ∧
        (s'.process server).query.count = s.query.count + 1 ∧
        Loaded name rows (s'.process server) request) := by
  obtain ⟨hzero, hrows⟩ := h.fetching hfetching
  have hobjects : s'.query.parameters.objects = [name] := by
    rw [hquery]
    exact h.objects
  rw [Session.process_array hnewest rfl h.response hobjects, Session.proceed, hquery, hrows]
  rcases pageRows_cases rows s.query.parameters.numResults s.query.count h.offset with
    ⟨hend, hstop, hall⟩ | ⟨hoffset, hgo, hnext⟩
  · rw [if_pos hstop, hall]
    refine ⟨rfl, rfl, .inl ⟨rfl, rfl, by rw [hcompletions, hzero], ?_⟩⟩
    exact ⟨hnewest, le_rfl, h.url, h.objects, h.response, h.offset, fun hne => absurd rfl hne,
      fun _ => ⟨Function.update_self _ _ _, hend⟩⟩
  · rw [if_neg hgo, hnext]
    obtain ⟨request, hstate, hrequests, hloaded⟩ := loaded_load
      (s := { s' with query := { s.query with
        results := Function.update s.query.results name
          (some (.array (rows.take ((s.query.count + 1) * s.query.parameters.numResults))))
        count := s.query.count + 1 } })
      hserves h.objects hoffset (hcompletions.trans hzero) (arrayOf_update _ _ _)
    exact ⟨rfl, rfl, .inr ⟨request, hstate, hrequests, rfl, hloaded⟩⟩

end Loaded

end ModMp
