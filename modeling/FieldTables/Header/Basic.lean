import FieldTables.Roster

/-!
# Headers

A header declares structures, and a structure declares fields. Both keep their order: it decides
the order of everything that is generated. A field that holds another structure by value names that
structure; any other field is a leaf.
-/

namespace FieldTables

/-- A field of a structure. -/
structure Field where
  /-- The name, unique in its structure. -/
  name : Text
  /-- The physical line of the declaration. -/
  line : Nat
  /-- The declared type, without the name and the array length. -/
  type : Text
  /-- The structure that the field holds by value, if it is no leaf. -/
  inner : Option Text
  /-- What stands between the brackets of an array. -/
  length : Option Text
  /-- The members to follow from the owning structure down to the field. -/
  path : List Text
  deriving DecidableEq

namespace Field

instance : Named Field := ⟨Field.name⟩

/-- A leaf as it is declared: reached by its own name alone. -/
def declared (name type : Text) (line : Nat) : Field where
  name := name
  line := line
  type := type
  inner := none
  length := none
  path := [name]

/-- The type whose size the field takes. -/
def sizedType (f : Field) : Text :=
  match f.length with
  | some length => f.type ++ '[' :: length ++ [']']
  | none => f.type

/-- The member access that leads to the field. -/
def access (f : Field) : Text := ['.'].intercalate f.path

end Field

/-- A structure with its fields in order. -/
structure Structure where
  /-- The tag, unique in its header. -/
  name : Text
  /-- The physical line of the declaration. -/
  line : Nat
  /-- The fields in declaration order. -/
  fields : Roster Field
  deriving DecidableEq

namespace Structure

instance : Named Structure := ⟨Structure.name⟩

/-- The structures that a structure holds by value, in declaration order. -/
def nested (s : Structure) : List Text := s.fields.entries.filterMap Field.inner

end Structure

/-- The structures of a header in order. -/
abbrev Header := Roster Structure

end FieldTables
