import FieldTables.Error
import FieldTables.Header.Basic

/-!
# Growth of a header

A header grows by structures and by fields of its last structure. A step that would repeat a name,
or that finds no structure to add to, fails and leaves the header as it was.
-/

namespace FieldTables.Header

/-- Open a new structure; fields that follow belong to it. -/
def addStructure (h : Header) (name : Text) (line : Nat) : Except Error Header :=
  match h.insert? { name := name, line := line, fields := .empty } with
  | some grown => .ok grown
  | none => .error (.duplicateStructure name)

/-- Add a field at the end of the last structure. -/
def addField (h : Header) (f : Field) : Except Error Header :=
  match h.last? with
  | none => .error (.syntactic f.line 1 (.orphan f.name))
  | some s =>
    match s.fields.insert? f with
    | some fields => .ok (h.replace { s with fields := fields })
    | none => .error (.duplicateField s.name f.name)

end FieldTables.Header
