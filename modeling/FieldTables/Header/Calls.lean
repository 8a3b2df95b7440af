import FieldTables.Header.Leaves

/-!
# Calls on a stack

The search for cycles and the flattening are procedures that call themselves. Here every call takes
a frame of a stack, and there are only so many frames. What is marked or finished stands in a table
that all calls share, and a run also records the structures whose fields are gone through, each time
that this happens.
-/

namespace FieldTables

/-- Why a run of calls stops. -/
inductive Halt where
  /-- No frame is left for a call. -/
  | overflow
  /-- A list is cut behind its end. -/
  | outOfRange
  /-- The procedure fails. -/
  | failed (cause : Error)
  deriving DecidableEq

/-- The part of a list from a position on, which must not lie behind the end. -/
def cutFrom? {α : Type} (start : Nat) (items : List α) : Option (List α) :=
  if start ≤ items.length then some (items.drop start) else none

namespace Header

/-- How far the visit of a structure is. -/
inductive Mark where
  /-- The visit has begun. -/
  | inProgress
  /-- The visit is over. -/
  | done
  deriving DecidableEq

/-- What the calls of the search share. -/
structure Visits where
  /-- The marks of structures, the latest first. -/
  marks : List (Text × Mark) := []
  /-- The structures that are being visited, outermost first. -/
  chain : List Text := []
  /-- The structures whose fields have been gone through, the latest first. -/
  scans : List Text := []

/-- Visit the structure that a field holds, if it is no leaf. -/
def follow (visit : Text → ExceptT Halt (StateM Visits) Unit) (f : Field) :
    ExceptT Halt (StateM Visits) Unit :=
  match f.inner with
  | some inner => visit inner
  | none => return

/-- Visit a structure and all that it holds, and fail when a visit that has begun is met again. -/
def checkRecursion (h : Header) : (frames : Nat) → Text → ExceptT Halt (StateM Visits) Unit
  | 0, _ => throw .overflow
  | frames + 1, name =>
    match h.find? name with
    | none => return
    | some s => do
      modify fun v => { v with chain := v.chain ++ [name] }
      let v ← get
      match v.marks.lookup name with
      | some .inProgress =>
        let start := (v.chain.findIdx? (· == name)).getD 0
        match cutFrom? start v.chain with
        | some cycle => throw (.failed (.recursiveNesting cycle))
        | none => throw .outOfRange
      | some .done => modify fun v => { v with chain := v.chain.dropLast }
      | none =>
        modify fun v => { v with marks := (name, .inProgress) :: v.marks, scans := name :: v.scans }
        s.fields.entries.forM (follow (h.checkRecursion frames))
        modify fun v => { v with marks := (name, .done) :: v.marks, chain := v.chain.dropLast }

/-- Visit all structures, each on a chain of its own. -/
def checkAll (h : Header) (frames : Nat) : ExceptT Halt (StateM Visits) Unit :=
  h.names.forM fun name => do
    modify fun v => { v with chain := [] }
    h.checkRecursion frames name

/-- Whether the header can be laid out flat, with the search on a stack. -/
def verifyWithin (h : Header) (frames : Nat) : ExceptT Halt (StateM Visits) Unit :=
  match h.emptyStructure? <|> h.unresolved? with
  | some e => throw (.failed e)
  | none => h.checkAll frames

/-- What the calls of the flattening share. -/
structure Walks where
  /-- The leaves of the structures that are finished. -/
  table : LeafTable := []
  /-- The structures whose fields have been walked through, the latest first. -/
  walks : List Text := []

/-- A step of a procedure that may fail. -/
def attempt {α : Type} : Except Error α → ExceptT Halt (StateM Walks) α
  | .ok a => return a
  | .error e => throw (.failed e)

/-- Add what a field comes to: the field itself, or the leaves of the structure that it holds, once
that structure is flattened. -/
def addFlat (flatten : Text → ExceptT Halt (StateM Walks) Unit) (owner : Text)
    (leaves : Roster Field) (f : Field) : ExceptT Halt (StateM Walks) (Roster Field) := do
  match f.inner with
  | none => attempt (addLeaf owner leaves f)
  | some inner =>
    flatten inner
    match (← get).table.lookup inner with
    | none => return leaves
    | some below => attempt ((below.entries.map f.through).foldlM (addLeaf owner) leaves)

/-- Flatten a structure unless it is finished. Nothing guards against a structure that holds
itself. -/
def resolve (h : Header) : (frames : Nat) → Text → ExceptT Halt (StateM Walks) Unit
  | 0, _ => throw .overflow
  | frames + 1, name => do
    if ((← get).table.lookup name).isSome then return
    match h.find? name with
    | none => return
    | some s =>
      modify fun w => { w with walks := name :: w.walks }
      let leaves ← s.fields.entries.foldlM (addFlat (h.resolve frames) s.name) .empty
      modify fun w => { w with table := (name, leaves) :: w.table }

/-- The header with every structure flattened on a stack, after it is found that it can be laid out
flat. -/
def flattenWithin (h : Header) (frames : Nat) : ExceptT Halt (StateM Walks) Header := do
  match (h.verifyWithin frames {}).1 with
  | .error e => throw e
  | .ok () =>
    h.names.forM (h.resolve frames)
    let table := (← get).table
    -- Every structure was resolved, so the lookup never falls back on no leaves.
    return h.map (fun s => { s with fields := (table.lookup s.name).getD .empty }) fun _ => rfl

end Header

end FieldTables
