/-
# `ResourceTables.Main` — the program: reads the file that is asked for, and prints the report
-/
import ResourceTables.CommandLine

namespace ResourceTables.CommandLine

/-- Why a file could not be read. -/
def pathFault : IO.Error → PathFault
  | .noFileOrDirectory .. => .missing
  | .permissionDenied .. => .denied
  | .inappropriateType _ 21 _ => .isDirectory
  | .inappropriateType .. => .notDirectory
  | .invalidArgument .. => .nameTooLong
  | error => .other error.toString

/-- What a file holds. -/
def readContent (path : String) : IO FileContent := do
  match ← (IO.FS.readBinFile path).toBaseIO with
  | .ok bytes => return .ok bytes.toList
  | .error error => return .error (pathFault error)

end ResourceTables.CommandLine

open ResourceTables ResourceTables.CommandLine

/-- Compiles the declarations in a file. -/
def main (args : List String) : IO UInt32 := do
  let asked := request [] args
  let report ← match asked with
    | .compile _ path => do
      let content ← readContent path
      pure (asked.report fun _ => content)
    | _ => pure (asked.report fun _ => .ok [])
  for note in report.notes do
    if note.level != .debug then IO.eprintln s!"{note.level.word} {note.text}"
  IO.print report.output
  IO.eprint report.complaint
  return report.code.toUInt32
