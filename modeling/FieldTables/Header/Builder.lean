import FieldTables.Header.Growth

/-!
# Building a header in place

A header can also be built in place, by calls that open a structure or add a field. The builder maps
tags to structures and, in each structure, names to fields; beside these maps it remembers the tag
of the structure that fields go to. A call is a sequence of steps on the builder, and one that fails
leaves behind what the steps before its failure did.
-/

namespace FieldTables

/-- A map that lists its keys in the order in which they were first given a value. -/
structure OrderedMap (α : Type) where
  /-- The keys with their values, the first key first. -/
  entries : List (Text × α) := []
  deriving DecidableEq

namespace OrderedMap

variable {α : Type}

/-- The value of a key. -/
def get? (m : OrderedMap α) (key : Text) : Option α := m.entries.lookup key

/-- Whether a key has a value. -/
def contains (m : OrderedMap α) (key : Text) : Bool := (m.get? key).isSome

/-- Give a key a value: in the place of the one that it has, or else at the end. -/
def insert (m : OrderedMap α) (key : Text) (a : α) : OrderedMap α where
  entries :=
    if m.contains key then m.entries.map fun entry => if entry.1 = key then (key, a) else entry
    else m.entries ++ [(key, a)]

end OrderedMap

/-- A structure that is being built. -/
structure Draft where
  /-- The tag. -/
  name : Text
  /-- The physical line of the declaration. -/
  line : Nat
  /-- The fields by their names. -/
  fields : OrderedMap Field := {}
  deriving DecidableEq

/-- A header that is being built. -/
structure Builder where
  /-- The structures by their tags. -/
  structures : OrderedMap Draft := {}
  /-- The tag of the structure that fields go to. -/
  current : Option Text := none
  deriving DecidableEq

namespace Builder

/-- Open a new structure; fields that follow belong to it. -/
def beginStructure (name : Text) (line : Nat) : ExceptT Error (StateM Builder) Unit := do
  if (← get).structures.contains name then throw (.duplicateStructure name)
  modify fun b => { b with structures := b.structures.insert name { name := name, line := line } }
  modify fun b => { b with current := some name }

/-- Add a field to the structure that was opened last. -/
def pushField (f : Field) : ExceptT Error (StateM Builder) Unit := do
  let b ← get
  match b.current.bind fun tag => (b.structures.get? tag).map fun s => (tag, s) with
  | none => throw (.syntactic f.line 1 (.orphan f.name))
  | some (tag, s) =>
    if s.fields.contains f.name then throw (.duplicateField s.name f.name)
    let grown := { s with fields := s.fields.insert f.name f }
    modify fun b => { b with structures := b.structures.insert tag grown }

/-- What is built in the end. -/
def finish (b : Builder) : OrderedMap Draft := b.structures

end Builder

/-- A call on a builder. -/
inductive Call where
  /-- Open a structure. -/
  | beginStructure (name : Text) (line : Nat)
  /-- Add a field. -/
  | pushField (f : Field)
  deriving DecidableEq

namespace Call

/-- The outcome of a call, and the builder that it leaves behind. -/
def run (b : Builder) : Call → Except Error Unit × Builder
  | beginStructure name line => Builder.beginStructure name line b
  | pushField f => Builder.pushField f b

/-- The header that a call makes of one, when it does not fail. -/
def apply (h : Header) : Call → Except Error Header
  | beginStructure name line => h.addStructure name line
  | pushField f => h.addField f

/-- The tag that a call opens, or fails to open. -/
def opens? : Call → Option Text
  | beginStructure name _ => some name
  | pushField _ => none

end Call

namespace Builder

/-- The builder after calls one behind the other; one that fails does not stop the others. -/
def after (b : Builder) (calls : List Call) : Builder := calls.foldl (fun b c => (c.run b).2) b

/-- The calls that succeed. -/
def accepted (b : Builder) : List Call → List Call
  | [] => []
  | c :: rest =>
    match (c.run b).1 with
    | .ok () => c :: accepted (c.run b).2 rest
    | .error _ => accepted (c.run b).2 rest

end Builder

namespace Header

/-- A header after a call, whether it fails or not. -/
def take (h : Header) (c : Call) : Header := (c.apply h).toOption.getD h

/-- The header that calls build from nothing. -/
def ofCalls (calls : List Call) : Header := calls.foldl take .empty

/-- The calls that spell a header out: each structure is opened, and its fields are added. -/
def calls (h : Header) : List Call :=
  h.entries.flatMap fun s =>
    .beginStructure s.name s.line :: s.fields.entries.map Call.pushField

end Header

end FieldTables
