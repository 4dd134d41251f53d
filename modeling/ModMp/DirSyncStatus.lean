import ModMp.OutputJson

/-!
# The status document of the directory sync

`output_dirsync_status` prints the state of each music directory, the rows of a query and the
errors. `print_error_messages` is declared nowhere in the source and is a parameter. A path is
printed as one symbol, a number as its digits, and a progress as what `%.2f` makes of it. A missing
result or query dereferences NULL, and has no result. What the threads do to the state of a
directory is left out.
-/

namespace ModMp
open CLib JsonText

/-- What `%.2f` prints: no quote, no backslash and no control character. -/
structure FloatText where
  bytes : Bytes
  plain : ∀ b ∈ bytes, isPlain b = true

structure DirShStats where
  syncProgress : FloatText
  filesScanned : ℤ

structure Dir where
  stats : DirShStats
  path : CString

def intDigits : ℤ → Bytes
  | .ofNat n => (Nat.toDigits 10 n).map Char.toUInt8
  | .negSucc n => '-'.toUInt8 :: (Nat.toDigits 10 (n + 1)).map Char.toUInt8

def dirJson (dir : Dir) : JsonText.Text Printed :=
  lit "\t\t" ++ quotedGiven (.id dir.path) ++ lit " : \x7b\n" ++
    lit "\t\t\"Progress\" :  " ++ quotedBytes dir.stats.syncProgress.bytes ++ lit ",\n" ++
    lit "\t\t\"Files Scanned\" :  " ++ quotedBytes (intDigits dir.stats.filesScanned) ++
    lit "\n" ++ lit "\t\t\x7d"

def dirsJson (dirs : List Dir) : JsonText.Text Printed :=
  lit "\t\"dir_sync_status\" : \x7b\n" ++
    dirs.zipIdx.flatMap (fun dir =>
      dirJson dir.1 ++ (if dir.2 + 1 < dirs.length then lit "," else [])) ++
    lit "\t\x7d,\n"

variable {n : ℕ}

def outputDirsyncStatus (printErrorMessages : ErrorMessages → JsonText.Text Printed)
    (musicDirs : Option (List Dir)) (query : MusicQueryT n) : Option (MusicQueryT n) := do
  let results ← query.results
  let rows ← results.rowArray
  let dbQuery ← query.dbQuery
  let output := query.output.setJson
  let output := output.puts (lit "\x7b\n")
  let output := match musicDirs with
    | some dirs => output.puts (dirsJson dirs)
    | none => output
  let output := output.puts (lit "\t\"db_status\" : ")
  let output := output.puts (outputDbResultJson rows dbQuery.selectColumns)
  let output := output.puts (lit "\n,")
  let output := output.puts (printErrorMessages query.errorMessages)
  return { query with output := output.puts (lit "\n\x7d\n") }

end ModMp
