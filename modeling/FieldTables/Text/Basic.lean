/-!
# Texts

A text is its list of characters. Columns count bytes, so every text also has a width: the bytes
that its characters take in UTF-8. What is blanked out keeps its width.
-/

namespace FieldTables

/-- A text is its list of characters. -/
abbrev Text := List Char

namespace Text

/-- The number of bytes that a text takes in UTF-8. -/
def width : Text → Nat
  | [] => 0
  | c :: rest => c.utf8Size + width rest

/-- A number of spaces. -/
def spaces (n : Nat) : Text := List.replicate n ' '

/-- As many spaces as the text has bytes, so what follows keeps its column. -/
def blanked (t : Text) : Text := spaces t.width

/-- The decimal digits of a number. -/
def decimal (n : Nat) : Text := Nat.toDigits 10 n

@[simp] theorem width_nil : width [] = 0 := rfl

@[simp] theorem width_cons (c : Char) (t : Text) : width (c :: t) = c.utf8Size + width t := rfl

@[simp] theorem width_append (s t : Text) : width (s ++ t) = width s + width t := by
  induction s with
  | nil => simp
  | cons c rest ih => rw [List.cons_append, width_cons, width_cons, ih, Nat.add_assoc]

/-- A space takes one byte. -/
@[simp] theorem width_spaces (n : Nat) : (spaces n).width = n := by
  induction n with
  | zero => rfl
  | succ n ih =>
    have hspace : Char.utf8Size ' ' = 1 := rfl
    rw [spaces, List.replicate_succ, width_cons, hspace, ← spaces, ih, Nat.add_comm]

end Text

end FieldTables
