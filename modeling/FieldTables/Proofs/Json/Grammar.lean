import FieldTables.Json.Reader

/-!
# The grammar of JSON

The grammar says which texts a value can be written as: with blanks around every value and every
name, with any escapes in a string, and with the members of an object in their order. It does not
say how a text is read. Every text of the grammar is read as the value that it is written for, so a
text is written for one value only.
-/

namespace FieldTables.Json

/-- Nothing but white space. -/
def Blank (t : Text) : Prop := ∀ c ∈ t, isSpace c = true

/-- At least one digit. -/
structure IsDigits (t : Text) : Prop where
  full : t ≠ []
  digits : ∀ c ∈ t, c.isDigit = true

/-- The part of a number in front of its fraction, without a leading zero. -/
inductive IsWhole : Text → Prop
  | zero : IsWhole ['0']
  | digits {t : Text} (digits : IsDigits t) (leading : t.head? ≠ some '0') : IsWhole t

/-- The fraction of a number, which may be absent. -/
inductive IsFraction : Text → Prop
  | absent : IsFraction []
  | present {digits : Text} (written : IsDigits digits) : IsFraction ('.' :: digits)

/-- The exponent of a number, which may be absent. -/
inductive IsExponent : Text → Prop
  | absent : IsExponent []
  | present {e : Char} {sign digits : Text} (letter : e = 'e' ∨ e = 'E')
      (signed : sign = [] ∨ sign = ['+'] ∨ sign = ['-']) (written : IsDigits digits) :
      IsExponent (e :: (sign ++ digits))

/-- A number. -/
inductive IsNumber : Text → Prop
  | intro {sign whole fraction exponent : Text} (signed : sign = [] ∨ sign = ['-'])
      (isWhole : IsWhole whole) (isFraction : IsFraction fraction)
      (isExponent : IsExponent exponent) : IsNumber (sign ++ whole ++ fraction ++ exponent)

/-- How one code of a string may be written. -/
inductive Encodes : Text → Nat → Prop
  /-- A character that is no control character stands for itself. -/
  | plain {c : Char} (printable : 0x20 ≤ c.toNat) (quote : c ≠ '"') (backslash : c ≠ '\\') :
      Encodes [c] c.toNat
  /-- Some characters have a letter. -/
  | letter {e c : Char} (stands : escapedCharacter? e = some c) : Encodes ['\\', e] c.toNat
  /-- A code can be given by four digits. -/
  | digits {a b c d : Char} {code : Nat} (stands : hexCode? a b c d = some code) :
      Encodes ['\\', 'u', a, b, c, d] code

/-- How the codes of a string are written between its quotes. -/
inductive Contents : Text → List Nat → Prop
  | nil : Contents [] []
  | cons {t u : Text} {code : Nat} {codes : List Nat} (first : Encodes t code)
      (rest : Contents u codes) : Contents (t ++ u) (code :: codes)

/-- Codes stand for a text, two surrogates for one character of it. -/
inductive Denotes : List Nat → Text → Prop
  | nil : Denotes [] []
  | one {code : Nat} {codes : List Nat} {t : Text} (lead : isLead code = false)
      (trail : isTrail code = false) (rest : Denotes codes t) :
      Denotes (code :: codes) (Char.ofNat code :: t)
  | two {lead trail : Nat} {codes : List Nat} {t : Text} (isLead : isLead lead = true)
      (isTrail : isTrail trail = true) (rest : Denotes codes t) :
      Denotes (lead :: trail :: codes)
        (Char.ofNat (0x10000 + (lead - 0xD800) * 0x400 + (trail - 0xDC00)) :: t)

/-- A string, with the text that it denotes if there is one. -/
inductive IsString (value : Option Text) : Text → Prop
  | intro {t : Text} {codes : List Nat} (contents : Contents t codes)
      (denotes : ∀ text, value = some text ↔ Denotes codes text) :
      IsString value ('"' :: t ++ ['"'])

/-- What the grammar speaks of. -/
inductive Phrase where
  /-- A value. -/
  | value (j : Json)
  /-- A value with blanks around it. -/
  | element (j : Json)
  /-- The items of an array, at least one. -/
  | elements (items : List Json)
  /-- A name and a value with blanks around them. -/
  | member (member : Option Text × Json)
  /-- The members of an object, at least one. -/
  | members (members : List (Option Text × Json))

/-- How a phrase may be written. -/
inductive Written : Phrase → Text → Prop
  | null : Written (.value .null) "null".toList
  | yes : Written (.value (.bool true)) "true".toList
  | no : Written (.value (.bool false)) "false".toList
  | number {t : Text} (is : IsNumber t) : Written (.value (.number t)) t
  | string {s : Option Text} {t : Text} (is : IsString s t) : Written (.value (.string s)) t
  | noItems {t : Text} (blank : Blank t) : Written (.value (.array [])) ('[' :: t ++ [']'])
  | array {items : List Json} {t : Text} (inside : Written (.elements items) t) :
      Written (.value (.array items)) ('[' :: t ++ [']'])
  | noMembers {t : Text} (blank : Blank t) :
      Written (.value (.object [])) ('\x7b' :: t ++ ['\x7d'])
  | object {members : List (Option Text × Json)} {t : Text}
      (inside : Written (.members members) t) :
      Written (.value (.object members)) ('\x7b' :: t ++ ['\x7d'])
  | element {j : Json} {front t back : Text} (before : Blank front) (value : Written (.value j) t)
      (behind : Blank back) : Written (.element j) (front ++ t ++ back)
  | lastElement {j : Json} {t : Text} (last : Written (.element j) t) : Written (.elements [j]) t
  | elements {j : Json} {items : List Json} {t u : Text} (first : Written (.element j) t)
      (rest : Written (.elements items) u) : Written (.elements (j :: items)) (t ++ ',' :: u)
  | member {name : Option Text} {j : Json} {front key back t : Text} (before : Blank front)
      (isKey : IsString name key) (behind : Blank back) (value : Written (.element j) t) :
      Written (.member (name, j)) (front ++ key ++ back ++ ':' :: t)
  | lastMember {m : Option Text × Json} {t : Text} (last : Written (.member m) t) :
      Written (.members [m]) t
  | members {m : Option Text × Json} {ms : List (Option Text × Json)} {t u : Text}
      (first : Written (.member m) t) (rest : Written (.members ms) u) :
      Written (.members (m :: ms)) (t ++ ',' :: u)

end FieldTables.Json
