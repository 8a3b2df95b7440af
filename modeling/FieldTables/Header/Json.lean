import FieldTables.Header.Basic
import FieldTables.Json.Printer

/-!
# Headers in JSON

A header is written as an object of its structures, and a structure's fields as an object of
fields, both under their names and in their order.
-/

namespace FieldTables

/-- The JSON value of a field. -/
def Field.toJson (f : Field) : Json :=
  .ofMembers
    [("name".toList, .ofText f.name), ("line".toList, .ofNat f.line),
     ("type_text".toList, .ofText f.type), ("struct_ref".toList, .ofText? f.inner),
     ("array_len".toList, .ofText? f.length), ("path".toList, .array (f.path.map .ofText))]

/-- The JSON value of a structure. -/
def Structure.toJson (s : Structure) : Json :=
  .ofMembers
    [("name".toList, .ofText s.name), ("line".toList, .ofNat s.line),
     ("fields".toList, .ofMembers (s.fields.entries.map fun f => (f.name, f.toJson)))]

/-- The JSON value of a header. -/
def Header.toJson (h : Header) : Json :=
  .ofMembers
    [("structures".toList, .ofMembers (h.entries.map fun s => (s.name, s.toJson)))]

end FieldTables
