import FieldTables.Json.Basic

/-!
# Reading JSON

The whole text must be one value with nothing but white space around it. White space is the space,
the tab, the line feed and the carriage return. Numbers are checked against the grammar only, and
values may be nested to any depth.
-/

namespace FieldTables.Json

/-- Whether a character may stand between the parts of a value. -/
def isSpace (c : Char) : Bool := c == ' ' || c == '\t' || c == '\n' || c == '\r'

/-- A text without the white space in front. -/
def skipSpace (t : Text) : Text := t.dropWhile isSpace

/-- The value of a hexadecimal digit. -/
def hexValue? (c : Char) : Option Nat :=
  if c.isDigit then some (c.toNat - '0'.toNat)
  else if 'a' ≤ c ∧ c ≤ 'f' then some (c.toNat - 'a'.toNat + 10)
  else if 'A' ≤ c ∧ c ≤ 'F' then some (c.toNat - 'A'.toNat + 10)
  else none

/-- The code of four hexadecimal digits. -/
def hexCode? (a b c d : Char) : Option Nat := do
  return (((← hexValue? a) * 16 + (← hexValue? b)) * 16 + (← hexValue? c)) * 16 + (← hexValue? d)

/-- The character that a letter after a backslash stands for. -/
def escapedCharacter? : Char → Option Char
  | '"' => some '"'
  | '\\' => some '\\'
  | '/' => some '/'
  | 'b' => some '\x08'
  | 'f' => some '\x0c'
  | 'n' => some '\n'
  | 'r' => some '\r'
  | 't' => some '\t'
  | _ => none

/-- The codes of a string after its opening quote, and the text after its closing one. Only an
escape can give the code of a surrogate. -/
def codes : Text → Option (List Nat × Text)
  | [] => none
  | '"' :: rest => some ([], rest)
  | '\\' :: 'u' :: a :: b :: c :: d :: rest => do
    let code ← hexCode? a b c d
    let (others, after) ← codes rest
    return (code :: others, after)
  | '\\' :: e :: rest => do
    let c ← escapedCharacter? e
    let (others, after) ← codes rest
    return (c.toNat :: others, after)
  | c :: rest =>
    if c.toNat < 0x20 ∨ c = '\\' then none
    else do
      let (others, after) ← codes rest
      return (c.toNat :: others, after)

/-- Whether a code is the first of a surrogate pair. -/
def isLead (code : Nat) : Bool := 0xD800 ≤ code && code ≤ 0xDBFF

/-- Whether a code is the second of a surrogate pair. -/
def isTrail (code : Nat) : Bool := 0xDC00 ≤ code && code ≤ 0xDFFF

/-- The text of a list of codes, unless a surrogate has no partner. -/
def textOfCodes? : List Nat → Option Text
  | [] => some []
  | lead :: trail :: rest =>
    if isLead lead then
      if isTrail trail then
        (textOfCodes? rest).map
          (Char.ofNat (0x10000 + (lead - 0xD800) * 0x400 + (trail - 0xDC00)) :: ·)
      else none
    else if isTrail lead then none
    else (textOfCodes? (trail :: rest)).map (Char.ofNat lead :: ·)
  | [code] => if isLead code || isTrail code then none else some [Char.ofNat code]

/-- A string after its opening quote, and the text after its closing one. -/
def string? (t : Text) : Option (Option Text × Text) :=
  (codes t).map fun (found, after) => (textOfCodes? found, after)

/-- At least one digit, and the text after the digits. -/
def digits? (t : Text) : Option (Text × Text) :=
  let digits := t.takeWhile Char.isDigit
  if digits.isEmpty then none else some (digits, t.dropWhile Char.isDigit)

/-- An integer without a sign: a zero, or digits that start with none. -/
def integer? : Text → Option (Text × Text)
  | '0' :: rest => some (['0'], rest)
  | t => digits? t

/-- The fraction of a number, if there is one. -/
def fraction? : Text → Option (Text × Text)
  | '.' :: rest => (digits? rest).map fun (digits, after) => ('.' :: digits, after)
  | t => some ([], t)

/-- The exponent of a number, if there is one. -/
def exponent? : Text → Option (Text × Text)
  | e :: rest =>
    if e = 'e' ∨ e = 'E' then
      match rest with
      | sign :: unsigned =>
        if sign = '+' ∨ sign = '-' then
          (digits? unsigned).map fun (digits, after) => (e :: sign :: digits, after)
        else (digits? rest).map fun (digits, after) => (e :: digits, after)
      | [] => none
    else some ([], e :: rest)
  | [] => some ([], [])

/-- A number as it is written. -/
def number? (t : Text) : Option (Text × Text) := do
  let (sign, t) := match t with
    | '-' :: rest => (['-'], rest)
    | t => ([], t)
  let (whole, t) ← integer? t
  let (fraction, t) ← fraction? t
  let (exponent, t) ← exponent? t
  return (sign ++ whole ++ fraction ++ exponent, t)

/-- A word with its value, if the text starts with it. -/
def literal? (word : Text) (value : Json) (t : Text) : Option (Json × Text) :=
  if word.isPrefixOf t then some (value, t.drop word.length) else none

mutual

/-- The value that a text starts with; the bound limits the depth and the number of items. -/
def value? : (bound : Nat) → Text → Option (Json × Text)
  | 0, _ => none
  | bound + 1, t =>
    match t with
    | '"' :: rest => (string? rest).map fun (value, after) => (.string value, after)
    | '[' :: rest =>
      match skipSpace rest with
      | ']' :: after => some (.array [], after)
      | first => (items? bound first).map fun (items, after) => (.array items, after)
    | '\x7b' :: rest =>
      match skipSpace rest with
      | '\x7d' :: after => some (.object [], after)
      | first => (members? bound first).map fun (members, after) => (.object members, after)
    | 'n' :: _ => literal? "null".toList .null t
    | 't' :: _ => literal? "true".toList (.bool true) t
    | 'f' :: _ => literal? "false".toList (.bool false) t
    | _ => (number? t).map fun (digits, after) => (.number digits, after)

/-- The items up to the end of an array, at least one. -/
def items? : (bound : Nat) → Text → Option (List Json × Text)
  | 0, _ => none
  | bound + 1, t => do
    let (item, after) ← value? bound t
    match skipSpace after with
    | ']' :: rest => return ([item], rest)
    | ',' :: rest =>
      let (others, rest) ← items? bound (skipSpace rest)
      return (item :: others, rest)
    | _ => none

/-- The members up to the end of an object, at least one. -/
def members? : (bound : Nat) → Text → Option (List (Option Text × Json) × Text)
  | 0, _ => none
  | bound + 1, t =>
    match t with
    | '"' :: rest => do
      let (name, after) ← string? rest
      match skipSpace after with
      | ':' :: rest =>
        let (value, after) ← value? bound (skipSpace rest)
        match skipSpace after with
        | '\x7d' :: rest => return ([(name, value)], rest)
        | ',' :: rest =>
          let (others, rest) ← members? bound (skipSpace rest)
          return ((name, value) :: others, rest)
        | _ => none
      | _ => none
    | _ => none

end

/-- The value of a text. Each step down takes at most two steps of the bound and a character of the
text, so the bound is never what ends the reading. -/
def read? (t : Text) : Option Json :=
  match value? (2 * t.length + 2) (skipSpace t) with
  | some (value, after) => if (skipSpace after).isEmpty then some value else none
  | none => none

end FieldTables.Json
