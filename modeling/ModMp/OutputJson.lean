import ModMp.ErrorDuplicate
import ModMp.JsonReader

/-!
# The JSON documents of the server

The error list is printed by `error_messages_print_json_bb` into the documents of
`output_status_json` and `output_db_query_json`, and the second has the rows of a query after it.
What `json_escape_char` returns is printed as one symbol, and so are the names of columns and
queries. `for` loops over an array are over its elements with their indices. A query without a
`db_query` dereferences NULL, and has no result, and neither has a call that leaves the array of a
table.
-/

namespace ModMp
open CLib JsonText

/-- What is printed for a `%s`. -/
inductive Printed
  | escaped (s : CString)
  | nullCell
  | friendlyName (s : CString)
  | id (s : CString)
  deriving DecidableEq

/-- `json_escape_char` as it is printed. -/
def jsonEscaped : Option CString → Printed
  | some s => .escaped s
  | none => .nullCell

def ErrorType.code : ErrorType → ℕ
  | .error => 0
  | .debug => 1
  | .warn => 2

/-- What is printed for a `%d`. -/
def ErrorType.digits (type : ErrorType) : Bytes := (toString type.code).toList.map Char.toUInt8

def errorJson (m : ErrorMessage) : JsonText.Text Printed :=
  lit "\t\t\t\x7b\n\t\t\t\t\"type\" : " ++ m.type.digits.map .byte ++
    lit ",\n\t\t\t\t\"header\" : " ++ quotedGiven (jsonEscaped (some m.headerText)) ++
    lit ",\n\t\t\t\t\"message\" : " ++ quotedGiven (jsonEscaped (some m.messageText)) ++
    lit "\n\t\t\t\x7d\n"

def errorMessagesPrintJson (t : ErrorMessages) : JsonText.Text Printed :=
  lit "\t\t\"Errors\" : [\n" ++
    t.records.zipIdx.flatMap (fun m =>
      errorJson m.1 ++ (if m.2 + 1 ≠ t.numErrors then lit "," else []) ++ lit "\n") ++
    lit "\t\t]\n"

/-- `error_messages_print_json_bb`: a table with too many errors is read past its array. -/
def errorMessagesPrintJsonBb (t : ErrorMessages) : Option (JsonText.Text Printed) :=
  if t.numErrors ≤ maxErrors then some (errorMessagesPrintJson t) else none

structure Output where
  headers : List (CString × CString)
  contentType : CString
  bucketBrigade : JsonText.Text Printed
  errorMessages : ErrorMessages

/-- The header and the type that both documents set. -/
def Output.setJson (output : Output) : Output :=
  { output with
    headers := output.headers ++
      [(CString.ofAscii "Access-Control-Allow-Origin", CString.ofAscii "*")]
    contentType := CString.ofAscii "application/json" }

def Output.puts (output : Output) (text : JsonText.Text Printed) : Output :=
  { output with bucketBrigade := output.bucketBrigade ++ text }

def outputStatusJson (output : Output) : Option Output := do
  let output := output.setJson
  let output := output.puts (lit "\x7b\n")
  let output := output.puts (← errorMessagesPrintJsonBb output.errorMessages)
  return output.puts (lit "\n\x7d\n")

/-- A query whose results have `n` columns. -/
structure DbQuery (n : ℕ) where
  id : Option CString
  selectColumns : List.Vector CString n
  dbConfigErrors : ErrorMessages

structure DbQueryResults (n : ℕ) where
  rowArray : Option (List (List.Vector (Option CString) n))

/-- The fields of `music_query_t` that are printed. -/
structure MusicQueryT (n : ℕ) where
  dbQuery : Option (DbQuery n)
  results : Option (DbQueryResults n)
  output : Output
  errorMessages : ErrorMessages

variable {n : ℕ}

/-- The cells of a row with their names. -/
def namedCells (selectColumns : List.Vector CString n) (row : List.Vector (Option CString) n) :
    List (CString × Option CString) := selectColumns.toList.zip row.toList

def cellJson (cell : CString × Option CString) : JsonText.Text Printed :=
  lit "\t\t\t\t" ++ quotedGiven (.friendlyName cell.1) ++ lit ": " ++
    quotedGiven (jsonEscaped cell.2)

def rowJson (cells : List (CString × Option CString)) : JsonText.Text Printed :=
  lit "\t\t\t\x7b\n" ++
    cells.zipIdx.flatMap (fun cell =>
      cellJson cell.1 ++ (if cell.2 + 1 < cells.length then lit ", " else []) ++ lit "\n") ++
    lit "\t\t\t\x7d"

def outputDbResultJson (rows : List (List.Vector (Option CString) n))
    (selectColumns : List.Vector CString n) : JsonText.Text Printed :=
  rows.zipIdx.flatMap (fun row =>
    rowJson (namedCells selectColumns row.1) ++
      (if row.2 + 1 < rows.length then lit "," else []))

def printingError : ErrorCall where
  type := .error
  header := CString.ofAscii "Error printing query"
  message := CString.ofAscii
    "URI: %s, query->db_query: %d, query->results: %d, query->results->rows: %d"

/-- The id and the rows of a query that has both. -/
def MusicQueryT.printed (query : MusicQueryT n) :
    Option (CString × List (List.Vector (Option CString) n)) := do
  let dbQuery ← query.dbQuery
  let id ← dbQuery.id
  let results ← query.results
  let rows ← results.rowArray
  return (id, rows)

def outputDbQueryJson (query : MusicQueryT n) : Option (MusicQueryT n) :=
  let printed := query.printed
  let errorMessages := match printed with
    | some _ => query.errorMessages
    | none => (errorMessagesAdd query.errorMessages printingError).2
  match query.dbQuery with
  | none => none
  | some dbQuery => do
      let errorMessages ← errorMessagesDuplicate errorMessages dbQuery.dbConfigErrors
      let output := query.output.setJson
      let output := output.puts (lit "\x7b\n")
      let output := output.puts (← errorMessagesPrintJsonBb errorMessages)
      let output := match printed with
        | some (id, rows) =>
            let output := output.puts (lit ",\n\t" ++ quotedGiven (Printed.id id) ++ lit " :[\n")
            let output := output.puts (outputDbResultJson rows dbQuery.selectColumns)
            output.puts (lit "\n\t]")
        | none => output
      return { query with errorMessages := errorMessages, output := output.puts (lit "\n\x7d\n") }

end ModMp
