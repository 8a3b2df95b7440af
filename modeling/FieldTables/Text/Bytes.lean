import FieldTables.Text.Basic

/-!
# Texts as bytes

A text is stored as UTF-8. Bytes that are not UTF-8 can still be shown to a reader: each longest
start of a character that does not go on as it should gives one replacement character. The program
itself never shows bytes; this is for those who look at the files that it leaves.
-/

namespace FieldTables.Text

/-- The bytes of a text. -/
def bytes (t : Text) : ByteArray := (String.ofList t).toUTF8

/-- The text of bytes that are UTF-8. -/
def ofBytes? (content : ByteArray) : Option Text := (String.fromUTF8? content).map String.toList

/-- A character of which some bytes are read. -/
structure Unfinished where
  /-- The bytes that follow. -/
  missing : Nat
  /-- The least value of the next byte. -/
  low : Nat
  /-- The greatest value of the next byte. -/
  high : Nat
  /-- The bits read so far. -/
  code : Nat

/-- What stands for bytes that are no character. -/
def replacementCharacter : Char := '\ufffd'

/-- A byte at the start of a character: the text that it completes, or what it begins. -/
def startByte (b : Nat) : Text × Option Unfinished :=
  if b < 0x80 then ([Char.ofNat b], none)
  else if b < 0xC2 then ([replacementCharacter], none)
  else if b < 0xE0 then ([], some ⟨1, 0x80, 0xBF, b % 0x20⟩)
  else if b < 0xF0 then
    let low := if b = 0xE0 then 0xA0 else 0x80
    let high := if b = 0xED then 0x9F else 0xBF
    ([], some ⟨2, low, high, b % 0x10⟩)
  else if b < 0xF5 then
    let low := if b = 0xF0 then 0x90 else 0x80
    let high := if b = 0xF4 then 0x8F else 0xBF
    ([], some ⟨3, low, high, b % 0x08⟩)
  else ([replacementCharacter], none)

/-- A byte of a character that is begun, or the start of the next one. -/
def nextByte (u : Unfinished) (b : Nat) : Text × Option Unfinished :=
  if u.low ≤ b ∧ b ≤ u.high then
    let code := u.code * 0x40 + b % 0x40
    if u.missing ≤ 1 then ([Char.ofNat code], none)
    else ([], some ⟨u.missing - 1, 0x80, 0xBF, code⟩)
  else
    let (t, begun) := startByte b
    (replacementCharacter :: t, begun)

/-- The text that bytes show, after a character that may be begun. -/
def shownFrom : Option Unfinished → List UInt8 → Text
  | none, [] => []
  | some _, [] => [replacementCharacter]
  | begun, b :: rest =>
    let (t, begun) := match begun with
      | none => startByte b.toNat
      | some u => nextByte u b.toNat
    t ++ shownFrom begun rest

/-- The text that bytes show. -/
def shown (content : ByteArray) : Text := shownFrom none content.toList

end FieldTables.Text
