import ModMp.CString

/-!
# The URI parser of a request

`inputInit` fills an `Input` from the request URI with three helpers: the indexer name up to the
second slash, the command after it, and the table of query parameters. Pointers into the URI are
offsets, and every access goes through the checked operations of `CString`. The conversions to
`int` that the source makes are kept; the pool and the unused `error_messages` field are not.
`apr_table_mergen` is not in the source, and is a parameter.
-/

namespace ModMp
open CLib

/-- An `apr_table_t`: keys and values in order of insertion. -/
abbrev AprTable := List (Bytes × Bytes)

structure Input where
  method : ℤ
  uri : Option CString
  indexerString : Option Bytes
  commandString : Option Bytes
  parameterStrings : Option AprTable
  deriving DecidableEq

/-- The status and the string left in `*indexer_string_ptr`, NULL before the call. -/
def getIndexerFromUri (uri : CString) (uriLength : ℤ) : Except Fault (ℤ × Option Bytes) := do
  let uriStart : ℕ := 1
  let slash ← uri.strchr uriStart '/'.toUInt8
  let slashIndex : ℤ := match slash with
    | none => uriLength
    | some i => if toInt ((i : ℤ) - uriStart) > uriLength then uriLength else i
  if slashIndex > uriStart then
    let size := toInt (slashIndex - uriStart)
    let indexer ← uri.copy uriStart size
    return (0, some indexer)
  else return (-1, none)

/-- The status and the string left in `*command_string_ptr`, NULL before the call. -/
def getCommandFromUri (uri : CString) (uriLength : ℤ) : Except Fault (ℤ × Option Bytes) := do
  let uriStart : ℕ := 1
  let slash ← uri.strchr uriStart '/'.toUInt8
  match slash with
  | none => return (-1, none)
  | some slashIndex =>
      if slashIndex > 0 then
        let paramStart ← uri.strchr uriStart '?'.toUInt8
        let size : ℤ := match paramStart with
          | some paramStartIndex => toInt ((paramStartIndex : ℤ) - (slashIndex + 1))
          | none => toInt (uriLength - (slashIndex + 1))
        let command ← uri.copy (slashIndex + 1) size
        return (0, some command)
      else return (0, none)

section Parameters
variable (aprTableMergen : AprTable → Bytes → Bytes → AprTable)

/-- The loop of `get_parameters_from_uri`, from the cursor `param_index` on. -/
def parameterLoop (uri : CString) (uriLength : ℕ) (table : AprTable) (paramIndex : ℕ) :
    Except Fault AprTable :=
  if _ : paramIndex < uriLength then do
    let paramLen ← uri.strcspn paramIndex ['&'.toUInt8, ';'.toUInt8]
    if paramLen = 0 then parameterLoop uri uriLength table (paramIndex + 1)
    else
      let equal ← uri.memchr paramIndex '='.toUInt8 paramLen
      let paramNameLen : ℕ := match equal with
        | some equalIndex => equalIndex - paramIndex
        | none => paramLen
      let paramName ← uri.copy paramIndex paramNameLen
      let paramValue ← (if paramLen - paramNameLen ≠ 0 then
        uri.copy ↑(paramIndex + paramNameLen + 1) ↑(paramLen - paramNameLen - 1) else pure [])
      parameterLoop uri uriLength (aprTableMergen table paramName paramValue)
        (paramIndex + paramLen + 1)
  else return table
termination_by uriLength - paramIndex

/-- The status and the table left in `*parameter_strings_ptr`, NULL before the call. -/
def getParametersFromUri (uri : CString) (uriLength : ℕ) :
    Except Fault (ℤ × Option AprTable) := do
  let query ← uri.memchr 0 '?'.toUInt8 uriLength
  match query with
  | none => return (-1, none)
  | some queryStartIndex =>
      let table ← parameterLoop aprTableMergen uri uriLength [] (queryStartIndex + 1)
      return (0, some table)

def inputInit (uri : Option CString) (methodNum : ℤ) : Except Fault (ℤ × Input) :=
  match uri with
  | none => return (0, ⟨methodNum, none, none, none, none⟩)
  | some u => do
      let uriLength ← u.strlen
      let indexer ← getIndexerFromUri u (toInt uriLength)
      let command ← getCommandFromUri u (toInt uriLength)
      let parameters ← getParametersFromUri aprTableMergen u uriLength
      return (0, ⟨methodNum, uri, indexer.2, command.2, parameters.2⟩)

end Parameters

end ModMp
