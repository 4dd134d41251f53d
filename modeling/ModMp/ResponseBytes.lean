import ModMp.JsonExpansion
import ModMp.RequestHandler
import ModMp.UtilJson

/-!
# The bytes of a response

`mp_handler` sends the bytes that `json_escape_char` and the format `%s` write for the strings of
its document. An escaped text can stand between quotes exactly when it has no control byte. So the
bytes are a JSON document exactly when no text of the server's errors has one, and with one no
value can be read from them, although each error is printed as it should be.
-/

namespace ModMp
open CLib JsonString JsonText Runs

/-- The bytes that `%s` writes. -/
def Printed.bytes : Printed → Bytes
  | .escaped s => (escapeLoop s 0).bytes
  | .nullCell => (CString.ofAscii "(null)").bytes
  | .friendlyName s => s.bytes
  | .id s => s.bytes

theorem Printed.bytes_escaped (s : CString) : (Printed.escaped s).bytes = escape s.bytes :=
  (escapeLoop_bytes s 0).trans (by rw [List.take_zero, List.drop_zero, List.nil_append])

/-- The text without given strings that the bytes are. -/
def rawText (bytes : Bytes) : JsonText.Text Empty := bytes.map .byte

theorem rawText_textBytes (written : Printed → Bytes) (text : JsonText.Text Printed) :
    rawText (textBytes written text) = expand written text := by
  rw [rawText, textBytes, expand, List.map_flatMap]
  congr 1
  funext sym
  cases sym <;> rfl

section Givens

theorem given_notMem_lit (t : Printed) (s : String) : Sym.given t ∉ lit s := by
  simp [lit]

theorem given_mem_errorJson {t : Printed} {m : ErrorMessage} : Sym.given t ∈ errorJson m ↔
    t = .escaped m.headerText ∨ t = .escaped m.messageText := by
  simp [errorJson, quotedGiven, jsonEscaped, given_notMem_lit]

theorem given_mem_statusText {t : Printed} {table : ErrorMessages} :
    Sym.given t ∈ statusText table ↔
      ∃ m ∈ table.records, t = .escaped m.headerText ∨ t = .escaped m.messageText := by
  have hseparator (P : Prop) [Decidable P] : Sym.given t ∉ if P then lit "," else [] := by
    split_ifs
    · exact given_notMem_lit t ","
    · exact List.not_mem_nil
  simp only [statusText, errorMessagesPrintJson, List.mem_append, List.mem_flatMap,
    given_notMem_lit, hseparator, given_mem_errorJson, or_false, false_or]
  constructor
  · rintro ⟨m, hm, h⟩
    exact ⟨m.1, List.fst_mem_of_mem_zipIdx hm, h⟩
  · rintro ⟨m, hm, h⟩
    obtain ⟨i, hi⟩ := List.mem_iff_getElem?.mp hm
    exact ⟨(m, i), List.mem_zipIdx_iff_getElem?.mpr hi, h⟩

end Givens

/-- No text of the error has a control byte. -/
def ErrorMessage.Clean (m : ErrorMessage) : Prop :=
  ∀ b ∈ m.headerText.bytes ++ m.messageText.bytes, 0x20 ≤ b

/-- The bytes that a string with this body denotes. -/
def bodyValue (body : Bytes) : Option Bytes := (pieces body).bind denote

/-- An object with the type of the error and with strings that denote its texts. -/
def Conveys (m : ErrorMessage) (v : JsonText.Value Empty) : Prop :=
  ∃ header message : Bytes,
    v = .object [(lit "type", .number m.type.digits), (lit "header", .string (rawText header)),
      (lit "message", .string (rawText message))] ∧
    bodyValue header = some m.headerText.bytes ∧ bodyValue message = some m.messageText.bytes

theorem bodyValue_escape {bytes : Bytes} (h : ∀ b ∈ bytes, 0x20 ≤ b) :
    bodyValue (escape bytes) = some bytes := by
  rw [bodyValue, (pieces_escape_iff bytes _).mpr ⟨h, rfl⟩, Option.bind_some, denote_map_byte]

theorem conveys_expand {m : ErrorMessage} (h : m.Clean) :
    Conveys m ((errorValue m).expand Printed.bytes) := by
  obtain ⟨hheader, hmessage⟩ := List.forall_mem_append.mp h
  have hstring (s : CString) :
      expand Printed.bytes [.given (jsonEscaped (some s))] = rawText (escape s.bytes) := by
    rw [← Printed.bytes_escaped]
    exact List.append_nil _
  refine ⟨_, _, ?_, bodyValue_escape hheader, bodyValue_escape hmessage⟩
  rw [← hstring, ← hstring]
  rfl

theorem Conveys.array {l : List ErrorMessage} (h : ∀ m ∈ l, m.Clean) :
    ∃ values, (errorsValue l).expand Printed.bytes = .array values ∧
      List.Forall₂ Conveys l values := by
  refine ⟨_, congrArg Value.array (expandItems_eq Printed.bytes (l.map errorValue)), ?_⟩
  rw [List.map_map, List.forall₂_map_right_iff, List.forall₂_same]
  exact fun m hm => conveys_expand (h m hm)

theorem clean_iff_of_errorValue_eq {m m' : ErrorMessage} (h : errorValue m = errorValue m') :
    m.Clean ↔ m'.Clean := by
  obtain ⟨-, hheader, hmessage⟩ : m.type.digits = m'.type.digits ∧
      m.headerText = m'.headerText ∧ m.messageText = m'.messageText := by
    simpa [errorValue, jsonEscaped] using h
  rw [ErrorMessage.Clean, ErrorMessage.Clean, hheader, hmessage]

theorem forall_mem_iff_of_map_eq {α β : Type} {P : α → Prop} {f : α → β}
    (hP : ∀ {a b}, f a = f b → (P a ↔ P b)) {l l' : List α} (h : l.map f = l'.map f) :
    (∀ a ∈ l, P a) ↔ ∀ a ∈ l', P a := by
  induction l generalizing l' with
  | nil => rw [List.map_eq_nil_iff.mp h.symm]
  | cons a l ih =>
      cases l' with
      | nil => cases h
      | cons b l' =>
          obtain ⟨hfirst, hrest⟩ := List.cons.inj h
          rw [List.forall_mem_cons, List.forall_mem_cons, hP hfirst, ih hrest]

theorem isContent_statusText_iff {t : ErrorMessages} :
    (∀ s, .given s ∈ statusText t → IsContent (Printed.bytes s)) ↔ ∀ m ∈ t.records, m.Clean := by
  have hclean (m : ErrorMessage) : m.Clean ↔ IsContent (Printed.escaped m.headerText).bytes ∧
      IsContent (Printed.escaped m.messageText).bytes := by
    rw [Printed.bytes_escaped, Printed.bytes_escaped, isContent_escape_iff, isContent_escape_iff]
    exact List.forall_mem_append
  simp only [given_mem_statusText, hclean]
  constructor
  · intro h m hm
    exact ⟨h _ ⟨m, hm, .inl rfl⟩, h _ ⟨m, hm, .inr rfl⟩⟩
  · rintro h s ⟨m, hm, rfl | rfl⟩
    · exact (h m hm).1
    · exact (h m hm).2

/-- The document of these errors is read from its bytes, as errors with the same texts, exactly when
none of them has a control byte. -/
theorem decode_bytes {records : List ErrorMessage} {text : JsonText.Text Printed}
    (h : Prints records text) :
    ((∀ m ∈ records, m.Clean) → ∃ values,
      decode (rawText (textBytes Printed.bytes text)) =
        some (.object [(lit "Errors", .array values)]) ∧
      List.Forall₂ Conveys records values) ∧
    ((∃ m ∈ records, ¬ m.Clean) → decode (rawText (textBytes Printed.bytes text)) = none) := by
  obtain ⟨t, rfl, hvalue⟩ := h
  have hcontent : (∀ s, .given s ∈ statusText t → IsContent (Printed.bytes s)) ↔
      ∀ m ∈ records, m.Clean :=
    isContent_statusText_iff.trans
      (forall_mem_iff_of_map_eq clean_iff_of_errorValue_eq (JsonText.Value.array.inj hvalue))
  rw [rawText_textBytes]
  constructor
  · intro hclean
    obtain ⟨values, hvalues, hconveys⟩ := Conveys.array hclean
    refine ⟨values, ?_, hconveys⟩
    rw [decode_expand (hcontent.mpr hclean) (decode_status t), hvalue]
    exact congrArg (fun v => some (Value.object [(lit "Errors", v)])) hvalues
  · rintro ⟨m, hm, hcontrol⟩
    rw [← Option.not_isSome_iff_eq_none, decode_expand_isSome_iff (decode_status t), hcontent]
    · exact fun hclean => hcontrol (hclean m hm)
    · intro s hs
      obtain ⟨m, -, rfl | rfl⟩ := given_mem_statusText.mp hs
      all_goals
        rw [Printed.bytes_escaped]
        exact isContent_or_isBlocked_escape _

section Clean

theorem mem_or_eq_of_mem_takeD {α : Type} {a d : α} {n : ℕ} {l : List α} (h : a ∈ l.takeD n d) :
    a ∈ l ∨ a = d := by
  induction n generalizing l with
  | zero => exact absurd h List.not_mem_nil
  | succ n ih =>
      cases l with
      | nil =>
          rcases List.mem_cons.mp h with rfl | h
          · exact .inr rfl
          · exact ih h
      | cons b l =>
          rcases List.mem_cons.mp h with rfl | h
          · exact .inl List.mem_cons_self
          · exact (ih h).imp_left (List.mem_cons_of_mem b)

theorem mem_of_mem_strncpy {s : CString} {n : ℕ} {b : UInt8}
    (h : b ∈ (CString.ofBytes (s.strncpy n).toList).bytes) : b ∈ s.bytes := by
  have hne := (CString.ofBytes (s.strncpy n).toList).ne_zero_of_mem h
  exact (mem_or_eq_of_mem_takeD ((List.takeWhile_sublist _).subset h)).resolve_right hne

theorem ErrorCall.clean_record {call : ErrorCall}
    (h : ∀ b ∈ call.header.bytes ++ call.message.bytes, 0x20 ≤ b) : call.record.Clean := by
  obtain ⟨hheader, hmessage⟩ := List.forall_mem_append.mp h
  exact List.forall_mem_append.mpr ⟨fun b hb => hheader b (mem_of_mem_strncpy hb),
    fun b hb => hmessage b (mem_of_mem_strncpy hb)⟩

theorem clean_noIndexerError : noIndexerError.record.Clean :=
  ErrorCall.clean_record (by decide +kernel)

theorem clean_answered_iff {t : ErrorMessages} (h : t.numErrors ≤ maxErrors) :
    (∀ m ∈ (t.records ++ [noIndexerError.record]).take maxErrors, m.Clean) ↔
      ∀ m ∈ t.records, m.Clean := by
  have hlength : t.records.length ≤ maxErrors := by
    rwa [ErrorMessages.records, List.length_map, List.length_range]
  constructor
  · intro hclean m hm
    apply hclean m
    rw [List.take_append, List.take_of_length_le hlength]
    exact List.mem_append_left _ hm
  · intro hclean m hm
    rcases List.mem_append.mp (List.mem_of_mem_take hm) with hm | hm
    · exact hclean m hm
    · rw [List.mem_singleton.mp hm]
      exact clean_noIndexerError

end Clean

open WebServer in
/-- Whatever has happened to the servers: what an enabled server with a table sends can be read as
its errors when none of their texts has a control byte, and as no value at all when one has. -/
theorem response_bytes (strnatcmp : CString → CString → ℤ) {pid : ℤ} {servers : List MpSrvCfg}
    (hservers : ∀ cfg ∈ servers, ∃ enable dir, cfg = mpConfigSrv enable dir)
    {l : List ServerEvent} {w : WebServer} (hrun : Run (Fires next) (start pid servers) l w)
    {process : Option ℕ} {server : ℕ} {cfg : MpSrvCfg}
    (hcfg : w.cfg process server = some cfg) (henable : cfg.enable = 1) {segment : ℕ}
    (hsegment : cfg.errorMessages = some segment) (input : Input) :
    ∃ response, mpHandler strnatcmp Printed.bytes w.memory cfg input = some (.ok response) ∧
      ((∀ m ∈ (w.memory.segments segment).errorMessages.records, m.Clean) → ∃ values,
        decode (rawText (textBytes Printed.bytes response.body)) =
          some (.object [(lit "Errors", .array values)]) ∧
        List.Forall₂ Conveys (((w.memory.segments segment).errorMessages.records ++
          [noIndexerError.record]).take maxErrors) values) ∧
      ((∃ m ∈ (w.memory.segments segment).errorMessages.records, ¬ m.Clean) →
        decode (rawText (textBytes Printed.bytes response.body)) = none) := by
  have hsound : w.Sound := hrun.invariant (.start hservers) (fun _ _ _ h hstep => h.step hstep)
  rcases mpHandler_answers strnatcmp Printed.bytes hsound.memory (hsound.cfg hcfg) input with
    ⟨-, hdisabled | hnone⟩ | ⟨own, response, hown, hresponse, -, hprints⟩
  · cases henable.symm.trans hdisabled
  · cases hsegment.symm.trans hnone
  · cases hsegment.symm.trans hown
    obtain ⟨hread, hnone⟩ := decode_bytes hprints
    have hclean := clean_answered_iff (hsound.memory segment)
    refine ⟨response, hresponse, fun h => hread (hclean.mpr h), fun h => hnone ?_⟩
    by_contra hall
    push Not at hall
    obtain ⟨m, hm, hcontrol⟩ := h
    exact hcontrol (hclean.mp hall m hm)

/-- An error with a line feed in its header. -/
def lineFeedError : ErrorCall := ⟨.error, lineFeed, CString.ofAscii "no song"⟩

/-- What the second server's child answers before and after the error with the line feed. -/
theorem response_bytes_two_servers : ∃ (w w' : WebServer) (cfg cfg' : MpSrvCfg),
    execute WebServer.next (.start 1 twoServers) [.postConfig (fun _ => missingFile),
      .postConfig (fun _ => missingFile), .childInit 2 (fun _ => true)] = some w ∧
    execute WebServer.next w [.addError (some 0) 1 lineFeedError] = some w' ∧
    w.cfg (some 0) 1 = some cfg ∧ w'.cfg (some 0) 1 = some cfg' ∧
    (∃ response values,
      mpHandler strcmpEq Printed.bytes w.memory cfg ⟨0, none, none, none, none⟩ =
        some (.ok response) ∧
      decode (rawText (textBytes Printed.bytes response.body)) =
        some (.object [(lit "Errors", .array values)]) ∧ values.length = 2) ∧
    ∃ response,
      mpHandler strcmpEq Printed.bytes w'.memory cfg' ⟨0, none, none, none, none⟩ =
        some (.ok response) ∧
      decode (rawText (textBytes Printed.bytes response.body)) = none := by
  have hservers : ∀ cfg ∈ twoServers, ∃ enable dir, cfg = mpConfigSrv enable dir := by
    intro cfg hcfg
    fin_cases hcfg <;> exact ⟨_, _, rfl⟩
  have hstart : ∃ w, execute WebServer.next (.start 1 twoServers)
      [.postConfig (fun _ => missingFile), .postConfig (fun _ => missingFile),
        .childInit 2 (fun _ => true)] = some w ∧
      ∃ w', execute WebServer.next w [.addError (some 0) 1 lineFeedError] = some w' ∧
      ∃ cfg cfg', w.cfg (some 0) 1 = some cfg ∧ w'.cfg (some 0) 1 = some cfg' ∧
        (cfg.enable = 1 ∧ cfg.errorMessages = some 1) ∧
        (cfg'.enable = 1 ∧ cfg'.errorMessages = some 1) ∧
        (w.memory.segments 1).errorMessages.records =
          [(xmlConfigError (fileIndexer (CString.ofAscii "/etc/b") false).xmlConfigPath).record] ∧
        (w'.memory.segments 1).errorMessages.records =
          [(xmlConfigError (fileIndexer (CString.ofAscii "/etc/b") false).xmlConfigPath).record,
            lineFeedError.record] :=
    ⟨_, rfl, _, rfl, _, _, rfl, rfl, ⟨rfl, rfl⟩, ⟨rfl, rfl⟩, rfl, rfl⟩
  obtain ⟨w, hrun, w', hrun', cfg, cfg', hcfg, hcfg', ⟨henable, hsegment⟩, ⟨henable', hsegment'⟩,
    hrecords, hrecords'⟩ := hstart
  refine ⟨w, w', cfg, cfg', hrun, hrun', hcfg, hcfg', ?_, ?_⟩
  · obtain ⟨response, hresponse, hread, -⟩ := response_bytes strcmpEq hservers
      (run_of_execute hrun) hcfg henable hsegment ⟨0, none, none, none, none⟩
    rw [hrecords] at hread
    obtain ⟨values, hdecode, hvalues⟩ := hread (by
      intro m hm
      rw [List.mem_singleton.mp hm]
      exact ErrorCall.clean_record (by decide +kernel))
    exact ⟨response, values, hresponse, hdecode, hvalues.length_eq.symm⟩
  · obtain ⟨response, hresponse, -, hnone⟩ := response_bytes strcmpEq hservers
      ((run_of_execute hrun).trans (run_of_execute hrun')) hcfg' henable' hsegment'
      ⟨0, none, none, none, none⟩
    rw [hrecords'] at hnone
    refine ⟨response, hresponse, hnone ⟨_, List.mem_cons_of_mem _ List.mem_cons_self, ?_⟩⟩
    intro hclean
    have htext : lineFeedError.record.headerText.bytes = [0x0A] :=
      takeWhile_takeD (fun b hb => lineFeed.ne_zero_of_mem hb) (by decide)
    have hmem : 0x0A ∈ lineFeedError.record.headerText.bytes := by
      rw [htext]
      exact List.mem_cons_self
    exact absurd (hclean 0x0A (List.mem_append_left _ hmem)) (by decide)

end ModMp
