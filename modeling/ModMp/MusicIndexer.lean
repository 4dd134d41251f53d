import ModMp.Delimited
import ModMp.ErrorMessages
import ModMp.WhereConditions

/-!
# The query of the music indexer

`getMusicQuery` reads the words of a request. Behind the type they come in pairs. The key of a pair
names a column, and its value is a WHERE condition, or it names an SQL clause. A list to sort by is
copied up to 255 bytes, cut into items at its commas, and each item is replaced by the column it
names. Nothing sets the pool of the parameters, so a condition that builds a new text goes through a
NULL pool, which is a fault here.

The case-insensitive comparison of APR and the searches for a query and for a column are
parameters. `apr_strtok` returns the pieces between the separators that are not empty.

The source calls `db_query_parameters_add_where`, which `db_query_parameters.h` declares and no file
defines. The model takes the call for one of `db_query_parameter_add_where`, which has the same
parameters and is defined in `db_query_parameters.c`.
-/

namespace ModMp.MusicIndexer
open CLib Delimited

inductive QueryType
  | songs
  | albums
  | artists
  | sources
  | play
  | transcode
  | status
  deriving DecidableEq

structure DbTable where
  id : CString
  name : CString

/-- A column with the table it points to. -/
structure ColumnTable extends DbTableColumn where
  table : DbTable

/-- A query with the columns that `find_column_from_query_by_friendly_name` finds. -/
structure DbQuery (strnatcasecmp : CString → CString → ℤ) where
  columns : List ColumnTable
  findColumn : CString → Option ColumnTable
  found : ∀ name column, findColumn name = some column →
    column ∈ columns ∧ strnatcasecmp name column.freindlyName = 0
  missing : ∀ name, findColumn name = none →
    ∀ column ∈ columns, strnatcasecmp name column.freindlyName ≠ 0

structure Library where
  strnatcasecmp : CString → CString → ℤ
  findQueryById : CString → Option (DbQuery strnatcasecmp)

inductive SqlClause
  | limit
  | offset
  | groupBy
  | orderBy
  deriving DecidableEq

structure QuerySqlClause where
  freindlyName : Option CString
  value : Option CString

structure DbQueryParameters where
  hasPool : Bool
  whereConditions : List QueryWhereCondition
  sqlClauses : SqlClause → QuerySqlClause

/-- The names set by `setup_sql_clause`. -/
def clauseName : SqlClause → Option CString
  | .limit => some (CString.ofAscii "limit")
  | .offset => some (CString.ofAscii "offset")
  | .groupBy => none
  | .orderBy => some (CString.ofAscii "sort_by")

def dbQueryParametersInit : DbQueryParameters where
  hasPool := false
  whereConditions := []
  sqlClauses clause := ⟨clauseName clause, none⟩

inductive QueryFault
  | string (fault : Fault)
  | nullPool

/-- Whether `db_query_parameter_add_where` concatenates a new text, in the pool of the
parameters. -/
def concatenates (column : DbTableColumn) (condition : CString) : Bool :=
  match column.type with
  | .varchar => condition.bytes.all isTextByte
  | .datetime => false
  | .int | .bigint =>
      condition.bytes.all (fun b => isDigit b || b == commaByte) &&
        condition.bytes.contains commaByte

def DbQueryParameters.addWhere (p : DbQueryParameters) (column : DbTableColumn)
    (condition : CString) : Except QueryFault (ℤ × DbQueryParameters × CString) :=
  if concatenates column condition && !p.hasPool then .error .nullPool
  else
    match dbQueryParameterAddWhere ⟨p.whereConditions⟩ column condition with
    | .error fault => .error (.string fault)
    | .ok (status, q, condition) =>
        .ok (status, { p with whereConditions := q.whereConditions }, condition)

def DbQueryParameters.setValue (p : DbQueryParameters) (clause : SqlClause) (value : CString) :
    DbQueryParameters :=
  let queryClause := { p.sqlClauses clause with value := some value }
  { p with sqlClauses := Function.update p.sqlClauses clause queryClause }

/-- What the loop over the words changes; the words are those before the current one. -/
structure LoopState where
  parameters : DbQueryParameters
  errorMessages : ErrorMessages
  queryNouns : List CString

def LoopState.addError (s : LoopState) (call : ErrorCall) : LoopState :=
  { s with errorMessages := (errorMessagesAdd s.errorMessages call).2 }

def LoopState.setValue (s : LoopState) (clause : SqlClause) (value : CString) : LoopState :=
  { s with parameters := s.parameters.setValue clause value }

def errorHeader : CString := CString.ofAscii "Error With Music Query"

def wordError (header : CString) (before : String) (word : CString) (after : String) :
    ErrorCall where
  type := .error
  header := header
  message := surround (CString.ofAscii before) word (CString.ofAscii after)

def notEnoughWords : ErrorCall where
  type := .error
  header := errorHeader
  message := CString.ofAscii "Query doesn't contain enough words."

def unsupportedType (word : CString) : ErrorCall :=
  wordError errorHeader "Query type " word " is not supported by API."

def unsupportedQuery (word : CString) : ErrorCall :=
  wordError errorHeader "Query type " word " is not supported by Database."

def whereError : ErrorCall where
  type := .error
  header := CString.ofAscii "Error with query"
  message := CString.ofAscii "There was an error adding the where query parameter"

def unknownColumn (colFname : CString) : ErrorCall :=
  wordError (CString.ofAscii "Error with query") "Column " colFname
    " doesn't exists in the database schema."

def unsupportedWord (word : CString) : ErrorCall :=
  wordError errorHeader "Query word " word " is not supported by server."

def tail (s : CString) : CString where
  bytes := s.bytes.tail
  nul_free h := s.nul_free (List.mem_of_mem_tail h)

/-- `apr_pstrndup(pool, s, n)`. -/
def strndup (s : CString) (n : ℕ) : CString where
  bytes := s.bytes.take n
  nul_free h := s.nul_free (List.mem_of_mem_take h)

def strtok (s : CString) (separator : UInt8) : List CString :=
  (pieces separator s.bytes).map CString.ofBytes

def plusByte : UInt8 := 0x2B

def minusByte : UInt8 := 0x2D

/-- `a_or_d` and `col_fname` behind the modifier of an item. -/
def modifier (item : CString) : CString × CString :=
  if item.bytes.head? = some plusByte then (CString.ofAscii " ASC", tail item)
  else if item.bytes.head? = some minusByte then (CString.ofAscii " DESC", tail item)
  else (CString.ofAscii "", item)

/-- `table.column` with the direction behind it. -/
def columnText (column : ColumnTable) (aOrD : CString) : CString :=
  ((column.table.name.append (CString.ofAscii ".")).append column.name).append aOrD

/-- The value of the clause with one more column. -/
def appendColumn (value : Option CString) (text : CString) : CString :=
  match value with
  | none => text
  | some value => (value.append (CString.ofAscii ",")).append text

section Loop
variable (lib : Library) (query : DbQuery lib.strnatcasecmp)

def sortStep (s : LoopState) (item : CString) : LoopState :=
  let (aOrD, colFname) := modifier item
  match query.findColumn colFname with
  | some column => s.setValue .orderBy
      (appendColumn (s.parameters.sqlClauses .orderBy).value (columnText column aOrD))
  | none => s.addError (unknownColumn colFname)

def sortLoop (s : LoopState) (items : List CString) : LoopState :=
  items.foldl (sortStep lib query) s

def maxSize : ℕ := 255

/-- The items read from the value of `sort_by`. -/
def sortItems (value : CString) : List CString := strtok (strndup value maxSize) commaByte

/-- The first clause with the friendly name `noun`. -/
def findClause (sqlClauses : SqlClause → QuerySqlClause) (noun : CString) : Option SqlClause :=
  [.limit, .offset, .groupBy, .orderBy].find? (fun clause =>
    match (sqlClauses clause).freindlyName with
    | none => false
    | some name => lib.strnatcasecmp noun name == 0)

inductive Outcome
  | next (s : LoopState)
  | returned (status : ℤ) (s : LoopState)

/-- One iteration of the loop, for the words `noun` and `value`. -/
def nounStep (noun value : CString) (s : LoopState) : Except QueryFault Outcome :=
  match query.findColumn noun with
  | some column => do
      let (status, parameters, value) ← s.parameters.addWhere column.toDbTableColumn value
      let s := { s with parameters := parameters, queryNouns := s.queryNouns ++ [noun, value] }
      return .next (if status ≠ 0 then s.addError whereError else s)
  | none =>
      let s := { s with queryNouns := s.queryNouns ++ [noun, value] }
      match findClause lib s.parameters.sqlClauses noun with
      | some .orderBy => return .next (sortLoop lib query s (sortItems value))
      | some clause => return .next (s.setValue clause value)
      | none => return .returned (-9) (s.addError (unsupportedWord noun))

/-- The loop over the words behind the type. -/
def nounLoop : List CString → LoopState → Except QueryFault (ℤ × LoopState)
  | noun :: value :: words, s => do
      match ← nounStep lib query noun value s with
      | .next s => nounLoop words s
      | .returned status s => return (status, { s with queryNouns := s.queryNouns ++ words })
  | words, s => return (0, { s with queryNouns := s.queryNouns ++ words })

end Loop

/-- The fields of `music_query_t`; a NULL array of words is the empty list. -/
structure MusicQuery (lib : Library) where
  type : QueryType
  dbQuery : Option (DbQuery lib.strnatcasecmp)
  dbQueryParameters : Option DbQueryParameters
  errorMessages : ErrorMessages
  queryNouns : List CString

def MusicQuery.addError {lib : Library} (q : MusicQuery lib) (call : ErrorCall) :
    MusicQuery lib :=
  { q with errorMessages := (errorMessagesAdd q.errorMessages call).2 }

def queryTypes : List (CString × QueryType) :=
  [(CString.ofAscii "songs", .songs), (CString.ofAscii "albums", .albums),
    (CString.ofAscii "artists", .artists), (CString.ofAscii "sources", .sources),
    (CString.ofAscii "pull", .play), (CString.ofAscii "transcode", .transcode),
    (CString.ofAscii "status", .status)]

/-- The first type whose name the word is. -/
def findType (lib : Library) (word : CString) : Option QueryType :=
  (queryTypes.find? (fun t => lib.strnatcasecmp word t.1 == 0)).map Prod.snd

/-- The status and the query after the call. -/
def getMusicQuery {lib : Library} (q : MusicQuery lib) :
    Except QueryFault (ℤ × MusicQuery lib) :=
  match q.queryNouns[1]? with
  | none => return (-3, q.addError notEnoughWords)
  | some typeWord =>
      match findType lib typeWord with
      | none => return (-2, q.addError (unsupportedType typeWord))
      | some type =>
          let q := { q with type := type }
          match lib.findQueryById typeWord with
          | none => return (-1, q.addError (unsupportedQuery typeWord))
          | some query =>
              let q := { q with dbQuery := some query }
              if q.queryNouns.length < 4 then return (0, q)
              else do
                let s := ⟨dbQueryParametersInit, q.errorMessages, q.queryNouns.take 2⟩
                let (status, s) ← nounLoop lib query (q.queryNouns.drop 2) s
                return (status, { q with
                  dbQueryParameters := some s.parameters
                  errorMessages := s.errorMessages
                  queryNouns := s.queryNouns })

def songTable : DbTable := ⟨CString.ofAscii "songs", CString.ofAscii "Songs"⟩

def songColumn (name freindlyName : String) (type : ColumnType) : ColumnTable where
  id := CString.ofAscii name
  name := CString.ofAscii name
  freindlyName := CString.ofAscii freindlyName
  type := type
  table := songTable

/-- Equality, for words in lower case without digits and spaces. -/
def compareWords (a b : CString) : ℤ := if a = b then 0 else 1

def songsQuery : DbQuery compareWords where
  columns := [songColumn "name" "song_title" .varchar, songColumn "length" "length" .int]
  findColumn name := [songColumn "name" "song_title" .varchar,
    songColumn "length" "length" .int].find? (fun column =>
      compareWords name column.freindlyName == 0)
  found name column h := ⟨List.mem_of_find?_eq_some h, by simpa using List.find?_some h⟩
  missing name h column hcolumn := by simpa using List.find?_eq_none.mp h column hcolumn

def songsLibrary : Library where
  strnatcasecmp := compareWords
  findQueryById id := if id = CString.ofAscii "songs" then some songsQuery else none

def songsRequest (words : List String) : MusicQuery songsLibrary where
  type := .songs
  dbQuery := none
  dbQueryParameters := none
  errorMessages := ⟨0, fun _ => whereError.record⟩
  queryNouns := words.map CString.ofAscii

end ModMp.MusicIndexer
