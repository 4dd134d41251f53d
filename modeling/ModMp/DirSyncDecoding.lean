import ModMp.DirSyncStatus
import ModMp.OutputJsonDecoding

/-!
# What the status document decodes to

The directories and the errors are fields of the document, whatever number of them there is. The
rows are printed without the brackets of an array, so the document is JSON for one row only.
-/

namespace ModMp
open CLib JsonText

theorem isPlain_digit {d : Char} (hd : d.isDigit) : isPlain d.toUInt8 = true := by
  have hrange : 48 ≤ d.toNat ∧ d.toNat ≤ 57 := by
    simpa [Char.isDigit, UInt32.le_iff_toNat_le] using hd
  obtain ⟨hlo, hhi⟩ := hrange
  change isPlain (UInt8.ofNat d.toNat) = true
  generalize d.toNat = n at hlo hhi
  interval_cases n <;> decide

theorem isPlain_toDigits (n : ℕ) :
    ∀ b ∈ (Nat.toDigits 10 n).map Char.toUInt8, isPlain b = true := by
  intro b hb
  obtain ⟨d, hd, rfl⟩ := List.mem_map.mp hb
  exact isPlain_digit (Nat.isDigit_of_mem_toDigits (by norm_num) (by norm_num) hd)

theorem isPlain_intDigits (i : ℤ) : ∀ b ∈ intDigits i, isPlain b = true := by
  cases i with
  | ofNat n => exact isPlain_toDigits n
  | negSucc n =>
      intro b hb
      rcases List.mem_cons.mp hb with rfl | hb
      · decide
      · exact isPlain_toDigits (n + 1) b hb

def dirFields (dir : Dir) : List (JsonText.Text Printed × Bytes) :=
  [(lit "Progress", dir.stats.syncProgress.bytes),
    (lit "Files Scanned", intDigits dir.stats.filesScanned)]

def dirTokens (dir : Dir) : List (Token Printed) :=
  .beginObject :: (separated (fun a => Reads.field a.1 [.string (a.2.map .byte)]) (dirFields dir) ++
    [.endObject])

/-- The object with the progress and the number of files, as strings. -/
def dirValue (dir : Dir) : JsonText.Value Printed :=
  .object ((dirFields dir).map (fun a => (a.1, .string (a.2.map .byte))))

theorem dirTokens_reads (dir : Dir) : Reads (dirTokens dir) (dirValue dir) :=
  Reads.object (fun _ _ => Reads.string _)

theorem dirJson_lexes (dir : Dir) :
    Lexes (dirJson dir) (Reads.field [.given (.id dir.path)] (dirTokens dir)) := by
  have htabs : Lexes (lit "\t\t" : JsonText.Text Printed) [] := by decide
  have hbegin : Lexes (lit " : \x7b\n" : JsonText.Text Printed) [.nameSeparator, .beginObject] := by
    decide
  have hprogress : Lexes (lit "\t\t\"Progress\" :  " : JsonText.Text Printed)
      [.string (lit "Progress"), .nameSeparator] := by decide
  have hcomma : Lexes (lit ",\n" : JsonText.Text Printed) [.valueSeparator] := by decide
  have hfiles : Lexes (lit "\t\t\"Files Scanned\" :  " : JsonText.Text Printed)
      [.string (lit "Files Scanned"), .nameSeparator] := by decide
  have hend : Lexes (lit "\t\t\x7d" : JsonText.Text Printed) [.endObject] := by decide
  exact ((((((((htabs.append (.quoted _)).append hbegin).append hprogress).append
    (.quotedPlain dir.stats.syncProgress.plain)).append hcomma).append hfiles).append
    (.quotedPlain (isPlain_intDigits _))).append lexes_newline).append hend

def dirsTokens (dirs : List Dir) : List (Token Printed) :=
  .beginObject ::
    (separated (fun dir => Reads.field [.given (.id dir.path)] (dirTokens dir)) dirs ++
      [.endObject])

def dirsValue (dirs : List Dir) : JsonText.Value Printed :=
  .object (dirs.map (fun dir => ([.given (.id dir.path)], dirValue dir)))

theorem dirsTokens_reads (dirs : List Dir) : Reads (dirsTokens dirs) (dirsValue dirs) :=
  Reads.object (fun dir _ => dirTokens_reads dir)

theorem dirsJson_lexes (dirs : List Dir) : Lexes (dirsJson dirs)
    (Reads.field (lit "dir_sync_status") (dirsTokens dirs) ++ [.valueSeparator]) := by
  have hbegin : Lexes (lit "\t\"dir_sync_status\" : \x7b\n" : JsonText.Text Printed)
      [.string (lit "dir_sync_status"), .nameSeparator, .beginObject] := by decide
  have hend : Lexes (lit "\t\x7d,\n" : JsonText.Text Printed) [.endObject, .valueSeparator] := by
    decide
  have hdirs : Lexes (dirs.zipIdx.flatMap (fun dir =>
      dirJson dir.1 ++ (if dir.2 + 1 < dirs.length then lit "," else [])))
      (separated (fun dir => Reads.field [.given (.id dir.path)] (dirTokens dir)) dirs) := by
    apply lexes_separated (fun dir i =>
      dirJson dir ++ (if i + 1 < dirs.length then lit "," else []))
    intro dir i _
    exact (dirJson_lexes dir).append lexes_comma.ite
  have h := (hbegin.append hdirs).append hend
  rw [dirsTokens, Reads.field, List.cons_append, List.cons_append, List.cons_append,
    List.append_assoc]
  exact h

def statusTokens : Option (List Dir) → List (Token Printed)
  | some dirs => Reads.field (lit "dir_sync_status") (dirsTokens dirs) ++ [.valueSeparator]
  | none => []

def statusFields : Option (List Dir) → List (JsonText.Text Printed × JsonText.Value Printed)
  | some dirs => [(lit "dir_sync_status", dirsValue dirs)]
  | none => []

def statusJson : Option (List Dir) → JsonText.Text Printed
  | some dirs => dirsJson dirs
  | none => []

theorem statusJson_lexes (musicDirs : Option (List Dir)) :
    Lexes (statusJson musicDirs) (statusTokens musicDirs) := by
  cases musicDirs with
  | none => exact Lexes.nil
  | some dirs => exact dirsJson_lexes dirs

theorem readRun_statusTokens (musicDirs : Option (List Dir)) :
    readRun (.name [] []) (statusTokens musicDirs) = some (.name (statusFields musicDirs) []) := by
  cases musicDirs with
  | none => rfl
  | some dirs =>
      rw [statusTokens, readRun_append, Reads.readRun_field (dirsTokens_reads dirs)]
      rfl

/-- A function that prints the errors as a field of a document. -/
def PrintsErrors (printErrorMessages : ErrorMessages → JsonText.Text Printed) : Prop :=
  ∀ t, Lexes (printErrorMessages t) (Reads.field (lit "Errors") (errorsTokens t.records))

section Document

variable {n : ℕ} (printErrorMessages : ErrorMessages → JsonText.Text Printed)
  (musicDirs : Option (List Dir)) (errorMessages : ErrorMessages)
  (selectColumns : List.Vector CString n) (rows : List (List.Vector (Option CString) n))

def dirsyncText : JsonText.Text Printed :=
  lit "\x7b\n" ++ statusJson musicDirs ++ lit "\t\"db_status\" : " ++
    outputDbResultJson rows selectColumns ++ lit "\n," ++ printErrorMessages errorMessages ++
    lit "\n\x7d\n"

def dirsyncTokens : List (Token Printed) :=
  [.beginObject] ++ statusTokens musicDirs ++ [.string (lit "db_status"), .nameSeparator] ++
    separated (fun row => rowTokens (namedCells selectColumns row)) rows ++ [.valueSeparator] ++
    Reads.field (lit "Errors") (errorsTokens errorMessages.records) ++ [.endObject]

variable {printErrorMessages} in
theorem dirsyncText_lexes (hprints : PrintsErrors printErrorMessages) :
    Lexes (dirsyncText printErrorMessages musicDirs errorMessages selectColumns rows)
      (dirsyncTokens musicDirs errorMessages selectColumns rows) := by
  have hbegin : Lexes (lit "\x7b\n" : JsonText.Text Printed) [.beginObject] := by decide
  have hname : Lexes (lit "\t\"db_status\" : " : JsonText.Text Printed)
      [.string (lit "db_status"), .nameSeparator] := by decide
  have hcomma : Lexes (lit "\n," : JsonText.Text Printed) [.valueSeparator] := by decide
  have hend : Lexes (lit "\n\x7d\n" : JsonText.Text Printed) [.endObject] := by decide
  exact (((((hbegin.append (statusJson_lexes musicDirs)).append hname).append
    (outputDbResultJson_lexes rows selectColumns)).append hcomma).append
    (hprints errorMessages)).append hend

theorem readRun_dirsyncTokens :
    readRun (.value []) (dirsyncTokens musicDirs errorMessages selectColumns rows) =
      readRun (.value [.object (statusFields musicDirs) (lit "db_status")])
        (separated (fun row => rowTokens (namedCells selectColumns row)) rows ++
          (.valueSeparator :: (Reads.field (lit "Errors") (errorsTokens errorMessages.records) ++
            [.endObject]))) := by
  simp only [dirsyncTokens, List.append_assoc]
  rw [List.singleton_append, readRun, readStep, Option.bind_some, readRun_append,
    readRun_statusTokens]
  rfl

/-- The value is the array of the rows, or the one row that there is. -/
def HoldsRows (v : JsonText.Value Printed) : Prop :=
  v = rowsValue selectColumns rows ∨
    rows.map (fun row => rowValue (namedCells selectColumns row)) = [v]

/-- The text is an object whose `db_status` has the rows. -/
def StatusHoldsRows (text : JsonText.Text Printed) : Prop :=
  ∃ fields v, decode text = some (.object fields) ∧ (lit "db_status", v) ∈ fields ∧
    HoldsRows selectColumns rows v

variable {printErrorMessages}

theorem decode_dirsyncText_one (hprints : PrintsErrors printErrorMessages)
    (row : List.Vector (Option CString) n) :
    decode (dirsyncText printErrorMessages musicDirs errorMessages selectColumns [row]) =
      some (.object (statusFields musicDirs ++
        [(lit "db_status", rowValue (namedCells selectColumns row))] ++
        [(lit "Errors", errorsValue errorMessages.records)])) := by
  have hlexes := dirsyncText_lexes musicDirs errorMessages selectColumns [row] hprints
  rw [decode, hlexes.tokens_eq]
  change (readRun (.value [])
    (dirsyncTokens musicDirs errorMessages selectColumns [row])).bind _ = _
  rw [readRun_dirsyncTokens, separated_singleton, readRun_append, rowTokens_reads, Option.bind_some]
  change (readRun (.name (statusFields musicDirs ++ [_]) []) _).bind _ = _
  rw [readRun_append, Reads.readRun_field (errorsTokens_reads _)]
  rfl

theorem decode_dirsyncText_none (hprints : PrintsErrors printErrorMessages)
    (hrows : rows.length ≠ 1) :
    decode (dirsyncText printErrorMessages musicDirs errorMessages selectColumns rows) = none := by
  apply decode_eq_none (dirsyncText_lexes musicDirs errorMessages selectColumns rows hprints)
  rw [readRun_dirsyncTokens]
  cases rows with
  | nil => rfl
  | cons first rows =>
      cases rows with
      | nil => exact absurd rfl hrows
      | cons second rows =>
          rw [separated_cons_cons, List.append_assoc, readRun_append, rowTokens_reads]
          rfl

theorem statusHoldsRows_iff (hprints : PrintsErrors printErrorMessages) :
    StatusHoldsRows selectColumns rows
        (dirsyncText printErrorMessages musicDirs errorMessages selectColumns rows) ↔
      rows.length = 1 := by
  constructor
  · rintro ⟨fields, v, hdecode, -, -⟩
    by_contra hrows
    rw [decode_dirsyncText_none musicDirs errorMessages selectColumns rows hprints hrows] at hdecode
    cases hdecode
  · intro hrows
    obtain ⟨row, rfl⟩ := List.length_eq_one_iff.mp hrows
    refine ⟨_, _, decode_dirsyncText_one musicDirs errorMessages selectColumns hprints row, ?_,
      Or.inr rfl⟩
    exact List.mem_append_left _ (List.mem_append_right _ List.mem_cons_self)

end Document

/-- The document has the rows in `db_status` if and only if there is one row. -/
theorem outputDirsyncStatus_holds_iff {n : ℕ}
    (printErrorMessages : ErrorMessages → JsonText.Text Printed)
    (hprints : PrintsErrors printErrorMessages) (musicDirs : Option (List Dir))
    (dbQuery : DbQuery n) (rows : List (List.Vector (Option CString) n)) (output : Output)
    (errorMessages : ErrorMessages) :
    ∃ query text, outputDirsyncStatus printErrorMessages musicDirs
        ⟨some dbQuery, some ⟨some rows⟩, output, errorMessages⟩ = some query ∧
      query.output.bucketBrigade = output.bucketBrigade ++ text ∧
      (StatusHoldsRows dbQuery.selectColumns rows text ↔ rows.length = 1) := by
  refine ⟨_, _, rfl, ?_, statusHoldsRows_iff musicDirs errorMessages dbQuery.selectColumns rows
    hprints⟩
  cases musicDirs <;>
    simp only [Output.puts, Output.setJson, dirsyncText, statusJson, List.append_assoc,
      List.nil_append]

theorem errorMessagesPrintJson_prints : PrintsErrors errorMessagesPrintJson :=
  errorMessagesPrintJson_lexes

def noErrors : ErrorMessages := ⟨0, fun _ => printingError.record⟩

def emptyOutput : Output := ⟨[], CString.ofAscii "", [], noErrors⟩

def countQuery : DbQuery 1 where
  id := some (CString.ofAscii "db_status")
  selectColumns := ⟨[CString.ofAscii "count"], rfl⟩
  dbConfigErrors := noErrors

theorem outputDirsyncStatus_holds_one :
    ∃ query text, outputDirsyncStatus errorMessagesPrintJson (some [])
        ⟨some countQuery, some ⟨some [⟨[none], rfl⟩]⟩, emptyOutput, noErrors⟩ = some query ∧
      query.output.bucketBrigade = [] ++ text ∧
      (StatusHoldsRows countQuery.selectColumns [⟨[none], rfl⟩] text ↔ 1 = 1) :=
  outputDirsyncStatus_holds_iff errorMessagesPrintJson errorMessagesPrintJson_prints (some [])
    countQuery [⟨[none], rfl⟩] emptyOutput noErrors

/-- A table without rows leaves out the value of `db_status`. -/
theorem dirsync_status_invalid : ¬ ∀ (musicDirs : Option (List Dir)) (dbQuery : DbQuery 1)
    (rows : List (List.Vector (Option CString) 1)) (output : Output)
    (errorMessages : ErrorMessages),
    ∃ query text, outputDirsyncStatus errorMessagesPrintJson musicDirs
        ⟨some dbQuery, some ⟨some rows⟩, output, errorMessages⟩ = some query ∧
      query.output.bucketBrigade = output.bucketBrigade ++ text ∧
      StatusHoldsRows dbQuery.selectColumns rows text := by
  intro h
  obtain ⟨query, text, heq, htext, fields, v, hdecode, -⟩ :=
    h (some []) countQuery [] emptyOutput noErrors
  cases heq
  have hnone : decode text = none := by
    rw [show text = _ from htext.symm]
    rfl
  rw [hnone] at hdecode
  cases hdecode

end ModMp
