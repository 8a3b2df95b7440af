import FieldTables.Json.Reader
import FieldTables.Settings.Basic

/-!
# Settings in JSON

Settings are an object of which every known member is optional and may come once; other members are
passed over. They may also be an array that lists the first few settings in their order. Settings
that are not given keep their defaults.
-/

namespace FieldTables.Settings

/-- A setting that a JSON text may give. -/
inductive Key where
  /-- The name space of the structures. -/
  | nameSpace
  /-- The further type words. -/
  | extraTypes
  /-- The file name of the enum header. -/
  | headerName
  /-- The file name of the header that declares the structures. -/
  | structHeader
  /-- The further includes. -/
  | includes
  deriving DecidableEq

namespace Key

/-- The settings in the order of an array. -/
def all : List Key := [nameSpace, extraTypes, headerName, structHeader, includes]

/-- The name of the member. -/
def name : Key → Text
  | nameSpace => "namespace_prefix".toList
  | extraTypes => "extra_types".toList
  | headerName => "header_name".toList
  | structHeader => "struct_header".toList
  | includes => "includes".toList

/-- The setting of a member name. -/
def ofName? (name : Text) : Option Key := all.find? (·.name == name)

end Key

/-- Give a setting its value, which must be of the right type. -/
def set? (s : Settings) (key : Key) (value : Json) : Option Settings :=
  match key with
  | .nameSpace => value.text?.map fun t => { s with nameSpace := t }
  | .extraTypes => value.texts?.map fun ts => { s with extraTypes := ts }
  | .headerName => value.text?.map fun t => { s with headerName := t }
  | .structHeader => value.text?.map fun t => { s with structHeader := t }
  | .includes => value.texts?.map fun ts => { s with includes := ts }

/-- Take in the members of an object; `given` lists the settings that have their values. -/
def setMembers? (s : Settings) (given : List Key) :
    List (Option Text × Json) → Option Settings
  | [] => some s
  | (name, value) :: rest => do
    match Key.ofName? (← name) with
    | none => setMembers? s given rest
    | some key =>
      if given.contains key then none
      else setMembers? (← s.set? key value) (key :: given) rest

/-- The settings of a JSON value. -/
def ofJson? : Json → Option Settings
  | .object members => setMembers? {} [] members
  | .array items =>
    if items.length ≤ Key.all.length then
      (Key.all.zip items).foldlM (fun s (key, value) => s.set? key value) {}
    else none
  | _ => none

/-- The settings of a JSON text, which must be usable. -/
def ofText (t : Text) : Except Error Settings :=
  match Json.read? t >>= ofJson? with
  | some s => do
    s.validate
    return s
  | none => .error (.settings .malformed)

end FieldTables.Settings
