import FieldTables.CommandLine.Arguments
import FieldTables.File.Replacement
import FieldTables.Generation
import FieldTables.Header.Json
import FieldTables.Settings.Json

/-!
# Runs

A run reads the settings and the header, compiles the header, and then writes both files or prints
the model. Nothing is written unless everything before succeeds.
-/

namespace FieldTables.CommandLine

/-- How a run ends. -/
inductive Outcome where
  /-- The run succeeds and prints a text. -/
  | done (output : Text)
  /-- The run fails. -/
  | failed (e : Error)
  /-- The arguments are not used as they should be. -/
  | misused

variable {m : Type → Type} [Monad m] [FileOperations m]

/-- A step that can fail in itself. -/
def step {α : Type} (result : Except Error α) : ExceptT Error m α := ExceptT.mk (pure result)

/-- A step on files, whose failure is that of the run. -/
def fileStep {α : Type} (action : m (Except FileError α)) : ExceptT Error m α :=
  ExceptT.mk ((Except.mapError Error.file ·) <$> action)

/-- The settings of an invocation. -/
def Invocation.loadSettings (i : Invocation) : ExceptT Error m Settings := do
  let stored ← match i.settings with
    | some p => do step (Settings.ofText (← fileStep (FileOperations.read p)))
    | none => pure {}
  let settings := { stored with
    nameSpace := i.nameSpace.getD stored.nameSpace
    extraTypes := stored.extraTypes ++ i.extraTypes }
  step settings.validate
  return settings

/-- Settings that include the files at two paths, where these have names. -/
def includeFiles (settings : Settings) (input header : Path) : Settings :=
  { settings with
    headerName := header.fileName?.getD settings.headerName
    structHeader := input.fileName?.getD settings.structHeader }

/-- Do what an invocation asks for, and give what is printed. Without stored settings, the source
includes the files that are used. -/
def Invocation.perform (i : Invocation) : ExceptT Error m Text := do
  let settings ← i.loadSettings
  match i.command with
  | .generate input header source =>
    let settings := if i.settings.isNone then includeFiles settings input header else settings
    let flat ← step (compile settings (← fileStep (FileOperations.read input)))
    let made := flat.artifacts settings
    fileStep (replaceFiles [(header, made.enumHeader), (source, made.source)])
    return "Generated ".toList ++ input.text ++ " → ".toList ++ header.text ++ ", ".toList
      ++ source.text ++ ['\n']
  | .model input =>
    let flat ← step (compile settings (← fileStep (FileOperations.read input)))
    return flat.toJson.pretty ++ ['\n']

/-- Run the program on its arguments. -/
def run (arguments : List Text) : m Outcome :=
  match invocation? arguments with
  | none => return .misused
  | some i => do
    match ← i.perform.run with
    | .ok output => return .done output
    | .error e => return .failed e

end FieldTables.CommandLine
