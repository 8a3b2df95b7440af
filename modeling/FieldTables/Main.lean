import FieldTables.CommandLine.Run
import FieldTables.Text.Bytes

/-!
# The program

The command line on real files: arguments in, files and an exit code out. The code is zero when the
run succeeds, one when it fails and two when the arguments are not used as they should be.
-/

namespace FieldTables.Main

/-- The cause of a failure of the system. -/
def fileError (e : IO.Error) : FileError :=
  match e with
  | .noFileOrDirectory .. => .notFound
  | .resourceBusy .. => .busy
  | .inappropriateType _ 20 _ => .notDirectory
  | .inappropriateType _ 21 _ => .isDirectory
  | _ => .other (toString e).toList

/-- An action on real files with its failure as a value. -/
def attempt {α : Type} (action : IO α) : IO (Except FileError α) := do
  try return .ok (← action)
  catch e => return .error (fileError e)

/-- A path as the system takes it. -/
def systemPath (p : Path) : String := String.ofList p.text

instance : FileOperations IO where
  write p text := attempt (IO.FS.writeFile (systemPath p) (String.ofList text))
  rename source target := attempt (IO.FS.rename (systemPath source) (systemPath target))
  remove p := attempt (IO.FS.removeFile (systemPath p))
  isFile p := do
    match ← attempt (do (← IO.FS.realPath (systemPath p)).metadata) with
    | .ok found => return (found.type matches .file)
    | .error _ => return false
  read p := do
    match ← attempt (IO.FS.readBinFile (systemPath p)) with
    | .ok content =>
      match Text.ofBytes? content with
      | some text => return .ok text
      | none => return .error .notText
    | .error e => return .error e

/-- How the program is used. -/
def usage : String :=
  "Usage: fieldtables [-c FILE] [--prefix TEXT] [--type NAME]... [COMMAND]\n\n" ++
  "Commands:\n" ++
  "  generate [-i FILE] [--header FILE] [--source FILE]\n" ++
  "  model [-i FILE]"

end FieldTables.Main

open FieldTables in
/-- Run the program on its arguments. -/
def main (arguments : List String) : IO UInt32 := do
  match ← (CommandLine.run (arguments.map String.toList) : IO CommandLine.Outcome) with
  | .done output =>
    IO.print (String.ofList output)
    return 0
  | .failed e =>
    IO.eprintln s!"Error: {String.ofList e.message}"
    return 1
  | .misused =>
    IO.eprintln Main.usage
    return 2
