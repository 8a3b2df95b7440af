import FieldTables.File.Operations

/-!
# Replacement of files

Several files are replaced together. Each new text is first written to a hidden file beside its
target. When all are written, each target that exists is moved to a backup and the hidden file takes
its place. A step that fails is answered by undoing what was done, last file first; when no step
fails, the backups are removed.
-/

namespace FieldTables

/-- A new file on its way to its target. -/
structure Replacement where
  /-- The file that is replaced. -/
  target : Path
  /-- The hidden file with the new text. -/
  temp : Path
  /-- Where the old file was moved, if there was one. -/
  backup : Option Path := none
  /-- Whether the new file stands at the target. -/
  committed : Bool := false
  deriving DecidableEq

namespace Replacement

variable {m : Type → Type} [Monad m] [FileOperations m]

open FileOperations

/-- The replacement of a target, before anything is done. -/
def ofTarget (target : Path) : Replacement where
  target := target
  temp := target.sibling "tmp".toList

/-- Move the file at a target to its backup, if there is one. -/
def setAside (target : Path) : m (Except FileError (Option Path)) := do
  if ← isFile target then
    let backup := target.sibling "bak".toList
    match ← rename target backup with
    | .ok () => return .ok (some backup)
    | .error e => return .error e
  else return .ok none

/-- Put the new file in the place of the old one; with the error of the step that failed. -/
def commit (r : Replacement) : m (Replacement × Option FileError) := do
  match ← setAside r.target with
  | .error e => return (r, some e)
  | .ok backup =>
    let aside := { r with backup := backup }
    match ← rename r.temp r.target with
    | .error e => return (aside, some e)
    | .ok () => return ({ aside with committed := true }, none)

/-- Take the new file away and bring the old one back. Errors are passed over: the one that called
for it is reported. -/
def undo (r : Replacement) : m Unit := do
  discard <| remove (if r.committed then r.target else r.temp)
  match r.backup with
  | some backup => discard <| rename backup r.target
  | none => pure ()

/-- Undo replacements, the last one first. -/
def undoAll (rs : List Replacement) : m Unit := rs.reverse.forM undo

/-- Write the new texts beside their targets, after those already written. -/
def stage (staged : List Replacement) :
    List (Path × Text) → m (Except FileError (List Replacement))
  | [] => return .ok staged
  | (target, text) :: rest => do
    let r := ofTarget target
    match ← write r.temp text with
    | .ok () => stage (staged ++ [r]) rest
    | .error e =>
      undoAll (staged ++ [r])
      return .error e

/-- Commit replacements, after those already committed. -/
def commitAll (committed : List Replacement) :
    List Replacement → m (Except FileError (List Replacement))
  | [] => return .ok committed
  | r :: rest => do
    match ← commit r with
    | (r, none) => commitAll (committed ++ [r]) rest
    | (r, some e) =>
      undoAll (committed ++ r :: rest)
      return .error e

end Replacement

/-- Replace all of the files by the given texts, or none of them. -/
def replaceFiles {m : Type → Type} [Monad m] [FileOperations m] (outputs : List (Path × Text)) :
    m (Except FileError Unit) := do
  match ← Replacement.stage [] outputs with
  | .error e => return .error e
  | .ok staged =>
    match ← Replacement.commitAll [] staged with
    | .error e => return .error e
    | .ok committed =>
      (committed.filterMap Replacement.backup).forM fun backup =>
        discard <| FileOperations.remove backup
      return .ok ()

end FieldTables
