import ModMp.OutputJson

/-!
# What the JSON documents decode to

Each piece of a document is read as the tokens of a value, whatever number of records, rows and
columns there is, and the tokens between them are the separators of JSON.
-/

namespace ModMp
open CLib JsonText

theorem lexes_comma : Lexes (lit "," : JsonText.Text Printed) [.valueSeparator] := by decide

theorem lexes_newline : Lexes (lit "\n" : JsonText.Text Printed) [] := by decide

theorem lexes_separated {α τ : Type} (body : α → ℕ → JsonText.Text τ) {item : α → List (Token τ)}
    {l : List α} (h : ∀ a i, i < l.length → Lexes (body a i)
      (item a ++ if i + 1 < l.length then [Token.valueSeparator] else [])) :
    Lexes (l.zipIdx.flatMap (fun a => body a.1 a.2)) (separated item l) := by
  apply Lexes.flatMap
  intro a ha
  exact h a.1 a.2 (List.snd_lt_of_mem_zipIdx ha)

def errorFields (m : ErrorMessage) :
    List (JsonText.Text Printed × Token Printed × JsonText.Value Printed) :=
  [(lit "type", .number m.type.digits, .number m.type.digits),
    (lit "header", .string [.given (.escaped m.headerText)],
      .string [.given (.escaped m.headerText)]),
    (lit "message", .string [.given (.escaped m.messageText)],
      .string [.given (.escaped m.messageText)])]

def errorTokens (m : ErrorMessage) : List (Token Printed) :=
  .beginObject :: (separated (fun a => Reads.field a.1 [a.2.1]) (errorFields m) ++ [.endObject])

/-- The object with the three parts of a record. -/
def errorValue (m : ErrorMessage) : JsonText.Value Printed :=
  .object [(lit "type", .number m.type.digits),
    (lit "header", .string [.given (jsonEscaped (some m.headerText))]),
    (lit "message", .string [.given (jsonEscaped (some m.messageText))])]

theorem errorTokens_reads (m : ErrorMessage) : Reads (errorTokens m) (errorValue m) := by
  have h : ∀ a ∈ errorFields m, Reads [a.2.1] a.2.2 := by
    intro a ha
    fin_cases ha
    · exact Reads.number _
    · exact Reads.string _
    · exact Reads.string _
  exact Reads.object h

theorem errorJson_lexes (m : ErrorMessage) : Lexes (errorJson m) (errorTokens m) := by
  have hfirst : Lexes (lit "\t\t\t\x7b\n\t\t\t\t\"type\" : " : JsonText.Text Printed)
      [.beginObject, .string (lit "type"), .nameSeparator] := by decide
  have htype : Lexes (m.type.digits.map .byte ++ lit ",\n\t\t\t\t\"header\" : ")
      ([.number m.type.digits, .valueSeparator, .string (lit "header"), .nameSeparator] :
        List (Token Printed)) := by
    cases m.type <;> decide
  have hmessage : Lexes (lit ",\n\t\t\t\t\"message\" : " : JsonText.Text Printed)
      [.valueSeparator, .string (lit "message"), .nameSeparator] := by decide
  have hlast : Lexes (lit "\n\t\t\t\x7d\n" : JsonText.Text Printed) [.endObject] := by decide
  have h := ((((hfirst.append htype).append (.quoted (jsonEscaped (some m.headerText)))).append
    hmessage).append (.quoted (jsonEscaped (some m.messageText)))).append hlast
  rw [← List.append_assoc] at h
  exact h

def errorsTokens (l : List ErrorMessage) : List (Token Printed) :=
  .beginArray :: (separated errorTokens l ++ [.endArray])

def errorsValue (l : List ErrorMessage) : JsonText.Value Printed := .array (l.map errorValue)

theorem errorsTokens_reads (l : List ErrorMessage) : Reads (errorsTokens l) (errorsValue l) :=
  Reads.array (fun m _ => errorTokens_reads m)

theorem errorMessagesPrintJson_lexes (t : ErrorMessages) : Lexes (errorMessagesPrintJson t)
    (Reads.field (lit "Errors") (errorsTokens t.records)) := by
  have hlength : t.records.length = t.numErrors := by
    rw [ErrorMessages.records, List.length_map, List.length_range]
  have hfirst : Lexes (lit "\t\t\"Errors\" : [\n" : JsonText.Text Printed)
      [.string (lit "Errors"), .nameSeparator, .beginArray] := by decide
  have hlast : Lexes (lit "\t\t]\n" : JsonText.Text Printed) [.endArray] := by decide
  have hrecords : Lexes (t.records.zipIdx.flatMap (fun m =>
      errorJson m.1 ++ (if m.2 + 1 ≠ t.numErrors then lit "," else []) ++ lit "\n"))
      (separated errorTokens t.records) := by
    apply lexes_separated (fun m i =>
      errorJson m ++ (if i + 1 ≠ t.numErrors then lit "," else []) ++ lit "\n")
    intro m i hi
    have hiff : i + 1 ≠ t.numErrors ↔ i + 1 < t.records.length := by omega
    have h := ((errorJson_lexes m).append (lexes_comma.ite (P := i + 1 ≠ t.numErrors))).append
      lexes_newline
    simp only [hiff, List.append_nil] at h ⊢
    exact h
  exact (hfirst.append hrecords).append hlast

def cellTokens (cell : CString × Option CString) : List (Token Printed) :=
  Reads.field [.given (.friendlyName cell.1)] [.string [.given (jsonEscaped cell.2)]]

def rowTokens (cells : List (CString × Option CString)) : List (Token Printed) :=
  .beginObject :: (separated cellTokens cells ++ [.endObject])

def rowValue (cells : List (CString × Option CString)) : JsonText.Value Printed :=
  .object (cells.map (fun cell =>
    ([.given (.friendlyName cell.1)], .string [.given (jsonEscaped cell.2)])))

theorem rowTokens_reads (cells : List (CString × Option CString)) :
    Reads (rowTokens cells) (rowValue cells) :=
  Reads.object (fun _ _ => Reads.string _)

theorem rowJson_lexes (cells : List (CString × Option CString)) :
    Lexes (rowJson cells) (rowTokens cells) := by
  have hfirst : Lexes (lit "\t\t\t\x7b\n" : JsonText.Text Printed) [.beginObject] := by decide
  have hlast : Lexes (lit "\t\t\t\x7d" : JsonText.Text Printed) [.endObject] := by decide
  have htabs : Lexes (lit "\t\t\t\t" : JsonText.Text Printed) [] := by decide
  have hcolon : Lexes (lit ": " : JsonText.Text Printed) [.nameSeparator] := by decide
  have hcomma : Lexes (lit ", " : JsonText.Text Printed) [.valueSeparator] := by decide
  have hcell (cell : CString × Option CString) : Lexes (cellJson cell) (cellTokens cell) :=
    ((htabs.append (.quoted _)).append hcolon).append (.quoted _)
  have hcells : Lexes (cells.zipIdx.flatMap (fun cell =>
      cellJson cell.1 ++ (if cell.2 + 1 < cells.length then lit ", " else []) ++ lit "\n"))
      (separated cellTokens cells) := by
    apply lexes_separated (fun cell i =>
      cellJson cell ++ (if i + 1 < cells.length then lit ", " else []) ++ lit "\n")
    intro cell i _
    have h := ((hcell cell).append (hcomma.ite (P := i + 1 < cells.length))).append
      lexes_newline
    rw [List.append_nil] at h
    exact h
  exact (hfirst.append hcells).append hlast

variable {n : ℕ}

def rowsTokens (selectColumns : List.Vector CString n)
    (rows : List (List.Vector (Option CString) n)) : List (Token Printed) :=
  .beginArray :: (separated (fun row => rowTokens (namedCells selectColumns row)) rows ++
    [.endArray])

def rowsValue (selectColumns : List.Vector CString n)
    (rows : List (List.Vector (Option CString) n)) : JsonText.Value Printed :=
  .array (rows.map (fun row => rowValue (namedCells selectColumns row)))

theorem rowsTokens_reads (selectColumns : List.Vector CString n)
    (rows : List (List.Vector (Option CString) n)) :
    Reads (rowsTokens selectColumns rows) (rowsValue selectColumns rows) :=
  Reads.array (fun row _ => rowTokens_reads (namedCells selectColumns row))

theorem outputDbResultJson_lexes (rows : List (List.Vector (Option CString) n))
    (selectColumns : List.Vector CString n) : Lexes (outputDbResultJson rows selectColumns)
      (separated (fun row => rowTokens (namedCells selectColumns row)) rows) := by
  apply lexes_separated (fun row i => rowJson (namedCells selectColumns row) ++
    (if i + 1 < rows.length then lit "," else []))
  intro row i _
  exact (rowJson_lexes (namedCells selectColumns row)).append lexes_comma.ite

theorem errorValue_copied (m : ErrorMessage) : errorValue m.copied = errorValue m := by
  have hheader : m.copied.headerText = m.headerText := ofBytes_strncpy m.header
  have hmessage : m.copied.messageText = m.messageText := ofBytes_strncpy m.message
  rw [errorValue, hheader, hmessage]
  rfl

theorem errorsValue_duplicate {new old t : ErrorMessages}
    (h : errorMessagesDuplicate new old = some t) :
    errorsValue t.records = errorsValue (new.records ++ old.records) := by
  rw [(records_errorMessagesDuplicate h).2, errorsValue, errorsValue, List.map_append,
    List.map_append, List.map_map]
  congr 2
  apply List.map_congr_left
  intro m _
  exact errorValue_copied m

/-- The fields of a document: the name, the tokens of the value, and the value. -/
abbrev DocumentFields := List (JsonText.Text Printed × List (Token Printed) ×
  JsonText.Value Printed)

theorem decode_document {text : JsonText.Text Printed} (fields : DocumentFields)
    (hlexes : Lexes text (separated (fun a => Reads.field a.1 a.2.1) fields))
    (hreads : ∀ a ∈ fields, Reads a.2.1 a.2.2) :
    decode (lit "\x7b\n" ++ text ++ lit "\n\x7d\n") =
      some (.object (fields.map (fun a => (a.1, a.2.2)))) := by
  have hfirst : Lexes (lit "\x7b\n" : JsonText.Text Printed) [.beginObject] := by decide
  have hlast : Lexes (lit "\n\x7d\n" : JsonText.Text Printed) [.endObject] := by decide
  exact decode_eq ((hfirst.append hlexes).append hlast) (Reads.object hreads)

def statusText (t : ErrorMessages) : JsonText.Text Printed :=
  lit "\x7b\n" ++ errorMessagesPrintJson t ++ lit "\n\x7d\n"

theorem decode_status (t : ErrorMessages) :
    decode (statusText t) = some (.object [(lit "Errors", errorsValue t.records)]) := by
  apply decode_document [(lit "Errors", errorsTokens t.records, errorsValue t.records)]
  · rw [separated_singleton]
    exact errorMessagesPrintJson_lexes t
  · intro a ha
    rw [List.mem_singleton.mp ha]
    exact errorsTokens_reads _

theorem decode_query (t : ErrorMessages) (id : CString) (selectColumns : List.Vector CString n)
    (rows : List (List.Vector (Option CString) n)) :
    decode (lit "\x7b\n" ++ (errorMessagesPrintJson t ++ (lit ",\n\t" ++ quotedGiven (.id id) ++
        lit " :[\n" ++ outputDbResultJson rows selectColumns ++ lit "\n\t]")) ++ lit "\n\x7d\n") =
      some (.object [(lit "Errors", errorsValue t.records),
        ([.given (.id id)], rowsValue selectColumns rows)]) := by
  have hcomma : Lexes (lit ",\n\t" : JsonText.Text Printed) [.valueSeparator] := by decide
  have hbegin : Lexes (lit " :[\n" : JsonText.Text Printed) [.nameSeparator, .beginArray] := by
    decide
  have hend : Lexes (lit "\n\t]" : JsonText.Text Printed) [.endArray] := by decide
  apply decode_document [(lit "Errors", errorsTokens t.records, errorsValue t.records),
    ([.given (.id id)], rowsTokens selectColumns rows, rowsValue selectColumns rows)]
  · rw [separated_pair]
    exact (errorMessagesPrintJson_lexes t).append ((((hcomma.append (.quoted _)).append
      hbegin).append (outputDbResultJson_lexes rows selectColumns)).append hend)
  · intro a ha
    rcases List.mem_pair.mp ha with rfl | rfl
    · exact errorsTokens_reads _
    · exact rowsTokens_reads selectColumns rows

/-- The text is the status document of a table with errors that are printed as these. -/
def Prints (records : List ErrorMessage) (text : JsonText.Text Printed) : Prop :=
  ∃ t : ErrorMessages, text = statusText t ∧ errorsValue t.records = errorsValue records

theorem Prints.decode {records : List ErrorMessage} {text : JsonText.Text Printed}
    (h : Prints records text) :
    decode text = some (.object [(lit "Errors", errorsValue records)]) := by
  obtain ⟨t, rfl, hvalue⟩ := h
  rw [decode_status, hvalue]

theorem outputStatusJson_eq_some {output output' : Output}
    (h : outputStatusJson output = some output') :
    output.errorMessages.numErrors ≤ maxErrors ∧
      output' = output.setJson.puts (statusText output.errorMessages) := by
  obtain ⟨printed, hprinted, h⟩ := Option.bind_eq_some_iff.mp h
  cases h
  unfold errorMessagesPrintJsonBb at hprinted
  split_ifs at hprinted with hle
  cases hprinted
  refine ⟨hle, ?_⟩
  simp only [Output.puts, Output.setJson, statusText, List.append_assoc]

theorem exists_outputStatusJson {output : Output}
    (h : output.errorMessages.numErrors ≤ maxErrors) :
    ∃ output', outputStatusJson output = some output' := by
  unfold outputStatusJson errorMessagesPrintJsonBb
  dsimp only [Output.puts, Output.setJson]
  rw [if_pos h]
  exact ⟨_, rfl⟩

section Query
variable {errorMessages dbConfigErrors : ErrorMessages} {output : Output} {id : CString}
  {selectColumns : List.Vector CString n} {rows : List (List.Vector (Option CString) n)}

/-- The document of a query with rows needs a copy of the database's errors that fits. -/
theorem fits_of_outputDbQueryJson {query : MusicQueryT n}
    (h : outputDbQueryJson ⟨some ⟨some id, selectColumns, dbConfigErrors⟩, some ⟨some rows⟩,
      output, errorMessages⟩ = some query) :
    errorMessages.numErrors + dbConfigErrors.numErrors ≤ maxErrors := by
  obtain ⟨t, ht, h⟩ := Option.bind_eq_some_iff.mp h
  obtain ⟨printed, hprinted, -⟩ := Option.bind_eq_some_iff.mp h
  unfold errorMessagesPrintJsonBb at hprinted
  split_ifs at hprinted with hle
  rwa [(records_errorMessagesDuplicate ht).1] at hle

theorem outputDbQueryJson_of_fits (id : CString) (selectColumns : List.Vector CString n)
    (rows : List (List.Vector (Option CString) n)) (output : Output)
    (h : errorMessages.numErrors + dbConfigErrors.numErrors ≤ maxErrors) :
    ∃ query text, outputDbQueryJson ⟨some ⟨some id, selectColumns, dbConfigErrors⟩,
        some ⟨some rows⟩, output, errorMessages⟩ = some query ∧
      query.output.bucketBrigade = output.bucketBrigade ++ text ∧
      decode text = some (.object
        [(lit "Errors", errorsValue (errorMessages.records ++ dbConfigErrors.records)),
          ([.given (.id id)], rowsValue selectColumns rows)]) := by
  have hduplicate := errorMessagesDuplicate_eq errorMessages dbConfigErrors
  rw [if_pos (.inr h)] at hduplicate
  have hle := (records_errorMessagesDuplicate hduplicate).1.trans_le h
  have hdecode := decode_query (errorMessages.duplicateLoop dbConfigErrors
    dbConfigErrors.numErrors) id selectColumns rows
  rw [errorsValue_duplicate hduplicate] at hdecode
  have hprinted : errorMessagesPrintJsonBb
      (errorMessages.duplicateLoop dbConfigErrors dbConfigErrors.numErrors) = some _ := if_pos hle
  suffices h : ∃ query, outputDbQueryJson ⟨some ⟨some id, selectColumns, dbConfigErrors⟩,
      some ⟨some rows⟩, output, errorMessages⟩ = some query ∧
        query.output.bucketBrigade = output.bucketBrigade ++ _ by
    obtain ⟨query, hquery, hbrigade⟩ := h
    exact ⟨query, _, hquery, hbrigade, hdecode⟩
  change ∃ query, (errorMessagesDuplicate errorMessages dbConfigErrors).bind _ = some query ∧ _
  rw [hduplicate, Option.bind_some]
  change ∃ query, (errorMessagesPrintJsonBb _).bind _ = some query ∧ _
  rw [hprinted, Option.bind_some]
  refine ⟨_, rfl, ?_⟩
  change ((((((output.setJson.puts _).puts _).puts _).puts _).puts _).puts _).bucketBrigade = _
  simp only [Output.puts, Output.setJson, List.append_assoc]

end Query

/-- Both documents are JSON texts, with what they print, for all sizes of the lists in them, exactly
when the errors that are printed fit into one table. -/
theorem json_documents_decode_iff (output : Output) (errorMessages dbConfigErrors : ErrorMessages)
    (id : CString) (selectColumns : List.Vector CString n)
    (rows : List (List.Vector (Option CString) n)) :
    ((∃ output' text, outputStatusJson output = some output' ∧
        output'.bucketBrigade = output.bucketBrigade ++ text ∧
        decode text = some (.object [(lit "Errors", errorsValue output.errorMessages.records)])) ↔
      output.errorMessages.numErrors ≤ maxErrors) ∧
    ((∃ query text,
        outputDbQueryJson ⟨some ⟨some id, selectColumns, dbConfigErrors⟩, some ⟨some rows⟩, output,
          errorMessages⟩ = some query ∧
        query.output.bucketBrigade = output.bucketBrigade ++ text ∧
        decode text = some (.object
          [(lit "Errors", errorsValue (errorMessages.records ++ dbConfigErrors.records)),
            ([.given (.id id)], rowsValue selectColumns rows)])) ↔
      errorMessages.numErrors + dbConfigErrors.numErrors ≤ maxErrors) := by
  constructor
  · constructor
    · rintro ⟨output', -, h, -⟩
      exact (outputStatusJson_eq_some h).1
    · intro h
      obtain ⟨output', houtput⟩ := exists_outputStatusJson h
      obtain ⟨-, rfl⟩ := outputStatusJson_eq_some houtput
      exact ⟨_, _, houtput, rfl, decode_status _⟩
  · constructor
    · rintro ⟨query, -, h, -⟩
      exact fits_of_outputDbQueryJson h
    · exact outputDbQueryJson_of_fits id selectColumns rows output

/-- A request with one error, and a database whose table is full. -/
theorem full_table_has_no_document :
    (requestTables maxErrors true).numErrors = 1 ∧
      (requestTables maxErrors false).numErrors = maxErrors ∧
      outputDbQueryJson ⟨some ⟨some (CString.ofAscii "songs"), (.nil : List.Vector CString 0),
        requestTables maxErrors false⟩, some ⟨some []⟩,
        ⟨[], CString.ofAscii "", [], requestTables maxErrors true⟩,
        requestTables maxErrors true⟩ = none := by
  refine ⟨rfl, rfl, ?_⟩
  rw [Option.eq_none_iff_forall_ne_some]
  intro query h
  have hfits := fits_of_outputDbQueryJson h
  have hnum : (requestTables maxErrors true).numErrors +
      (requestTables maxErrors false).numErrors = 1 + maxErrors := rfl
  omega

end ModMp
