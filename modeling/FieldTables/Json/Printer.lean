import FieldTables.Json.Basic

/-!
# Printed JSON

Each item and each member stands on a line of its own, two spaces further in than the brackets
around it. An empty array or object is written without a line break.
-/

namespace FieldTables.Json

/-- A string as it is written; one that denotes no text is a surrogate alone. -/
def printedString : Option Text → Text
  | some t => t.quoted
  | none => "\"\\ud800\"".toList

/-- A new line at a depth. -/
def newLine (depth : Nat) : Text := '\n' :: Text.spaces (2 * depth)

mutual

/-- A value that stands at a depth. -/
def printed (depth : Nat) : Json → Text
  | .null => "null".toList
  | .bool true => "true".toList
  | .bool false => "false".toList
  | .number digits => digits
  | .string value => printedString value
  | .array [] => "[]".toList
  | .array (item :: rest) =>
    '[' :: newLine (depth + 1) ++ printed (depth + 1) item ++ printedItems (depth + 1) rest
      ++ newLine depth ++ [']']
  | .object [] => "\x7b\x7d".toList
  | .object ((name, value) :: rest) =>
    '\x7b' :: newLine (depth + 1) ++ printedString name ++ ": ".toList
      ++ printed (depth + 1) value ++ printedMembers (depth + 1) rest ++ newLine depth ++ ['\x7d']

/-- The items after the first one of an array, at their depth. -/
def printedItems (depth : Nat) : List Json → Text
  | [] => []
  | item :: rest => ',' :: newLine depth ++ printed depth item ++ printedItems depth rest

/-- The members after the first one of an object, at their depth. -/
def printedMembers (depth : Nat) : List (Option Text × Json) → Text
  | [] => []
  | (name, value) :: rest =>
    ',' :: newLine depth ++ printedString name ++ ": ".toList ++ printed depth value
      ++ printedMembers depth rest

end

/-- The text of a value. -/
def pretty (j : Json) : Text := printed 0 j

end FieldTables.Json
