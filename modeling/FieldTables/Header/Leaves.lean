import FieldTables.Header.Nesting

/-!
# Leaves

Flattening puts in the place of every field that holds a structure by value the leaves of that
structure, each named and reached through the field. A structure is flattened once: a table keeps
the leaves of those that are finished, and later uses read it.
-/

namespace FieldTables

/-- A leaf of the structure that a field holds, seen from the owner of the field. -/
def Field.through (outer leaf : Field) : Field where
  name := outer.name ++ '_' :: leaf.name
  line := outer.line
  type := leaf.type
  inner := none
  length := leaf.length
  path := outer.name :: leaf.path

/-- The leaves of the structures that are flattened so far, by their tags. -/
abbrev LeafTable := List (Text × Roster Field)

namespace Header

/-- Add a leaf to those of a structure, whose name is for the error. -/
def addLeaf (owner : Text) (leaves : Roster Field) (leaf : Field) : Except Error (Roster Field) :=
  match leaves.insert? leaf with
  | some grown => .ok grown
  | none => .error (.duplicateField owner leaf.name)

/--
Add the leaves of the given fields of a structure to those found so far. `chain` lists the
structures being flattened; one that is undeclared or on the chain itself adds no leaf, which a
verified header rules out.
-/
def collect (h : Header) (chain : List Text) (owner : Text) (fields : List Field)
    (leaves : Roster Field) (table : LeafTable) : Except Error (Roster Field × LeafTable) :=
  match fields with
  | [] => .ok (leaves, table)
  | f :: rest =>
    match f.inner with
    | none => do collect h chain owner rest (← addLeaf owner leaves f) table
    | some name =>
      match table.lookup name with
      | some below => do
        let leaves ← (below.entries.map f.through).foldlM (addLeaf owner) leaves
        collect h chain owner rest leaves table
      | none =>
        match _found : h.find? name with
        | none => collect h chain owner rest leaves table
        | some s =>
          if _off : chain.contains name = false then do
            let (below, table) ← collect h (name :: chain) name s.fields.entries .empty table
            let leaves ← (below.entries.map f.through).foldlM (addLeaf owner) leaves
            collect h chain owner rest leaves ((name, below) :: table)
          else collect h chain owner rest leaves table
  termination_by h.room chain + fields.length
  decreasing_by
    · simp
    · simp
    · simp
    · have below := room_cons_add_le _found _off
      simp only [List.length_cons]
      exact Nat.lt_of_lt_of_le (Nat.lt_of_succ_le below) (Nat.le_add_right ..)
    · simp
    · simp

/-- The table with the leaves of one more structure. -/
def tabulate (h : Header) (table : LeafTable) (s : Structure) : Except Error LeafTable :=
  if (table.lookup s.name).isSome then .ok table
  else do
    let (leaves, table) ← h.collect [s.name] s.name s.fields.entries .empty table
    return (s.name, leaves) :: table

/-- The header with every structure flattened, if it can be laid out flat without two leaves of one
name. -/
def flatten (h : Header) : Except Error Header := do
  h.verify
  let table ← h.entries.foldlM h.tabulate []
  -- Every structure was tabulated, so the lookup never falls back on no leaves.
  return h.map (fun s => { s with fields := (table.lookup s.name).getD .empty }) fun _ => rfl

end Header

end FieldTables
