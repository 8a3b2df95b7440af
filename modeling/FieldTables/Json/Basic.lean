import FieldTables.Text.Quoted

/-!
# JSON values

Members of an object keep their order, and a name may come twice. A number is kept as it is
written. A string whose escapes leave a surrogate without its partner is well formed but denotes no
text.
-/

namespace FieldTables

/-- A JSON value. -/
inductive Json where
  /-- The null value. -/
  | null
  /-- A truth value. -/
  | bool (value : Bool)
  /-- A number, as it is written. -/
  | number (digits : Text)
  /-- A string, if it denotes a text. -/
  | string (value : Option Text)
  /-- An array. -/
  | array (items : List Json)
  /-- An object; a name is a string. -/
  | object (members : List (Option Text × Json))

namespace Json

/-- The string of a text. -/
def ofText (t : Text) : Json := .string (some t)

/-- The string of a text, or null. -/
def ofText? : Option Text → Json
  | some t => ofText t
  | none => .null

/-- The number. -/
def ofNat (n : Nat) : Json := .number (Text.decimal n)

/-- The object whose members have the given names. -/
def ofMembers (members : List (Text × Json)) : Json :=
  .object (members.map fun member => (some member.1, member.2))

/-- The text that a string denotes. -/
def text? : Json → Option Text
  | .string value => value
  | _ => none

/-- The texts of an array of strings. -/
def texts? : Json → Option (List Text)
  | .array items => items.mapM text?
  | _ => none

end Json

end FieldTables
