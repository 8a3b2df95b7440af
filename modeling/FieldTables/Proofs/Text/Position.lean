import FieldTables.Text.Character
import FieldTables.Text.Bytes
import Mathlib.Data.List.Basic

/-!
# Positions in a text

A column counts bytes, so a character is found in a text by the byte at which it starts. What is
said of characters and their first bytes holds of all bytes: each byte of a text belongs to one
character, and has the same place in it wherever that character stands.
-/

namespace FieldTables.Text

variable {s t : Text} {p q : Nat} {c d : Char}

/-- A character starts at a byte of a text. -/
def Has (t : Text) (p : Nat) (c : Char) : Prop :=
  ∃ before after, t = before ++ c :: after ∧ before.width = p

/-- A character that is not blank starts at a byte of a text. -/
def Ink (t : Text) (p : Nat) (c : Char) : Prop := t.Has p c ∧ isBlank c = false

theorem not_has_nil : ¬Has [] p c := by
  rintro ⟨before, after, split, -⟩
  cases before <;> cases split

theorem has_cons : Has (d :: t) p c ↔ (p = 0 ∧ c = d) ∨ ∃ q, p = d.utf8Size + q ∧ t.Has q c := by
  constructor
  · rintro ⟨before, after, split, rfl⟩
    cases before with
    | nil =>
      cases split
      exact .inl ⟨rfl, rfl⟩
    | cons e before =>
      cases split
      exact .inr ⟨width before, rfl, before, after, rfl, rfl⟩
  · rintro (⟨rfl, rfl⟩ | ⟨_, rfl, before, after, rfl, rfl⟩)
    · exact ⟨[], t, rfl, rfl⟩
    · exact ⟨d :: before, after, rfl, rfl⟩

theorem has_append :
    (s ++ t).Has p c ↔ s.Has p c ∨ ∃ q, p = s.width + q ∧ t.Has q c := by
  induction s generalizing p with
  | nil => simp [not_has_nil]
  | cons d rest ih =>
    simp only [List.cons_append, has_cons, ih, width_cons]
    constructor
    · rintro (here | ⟨_, rfl, below | ⟨q, rfl, after⟩⟩)
      · exact .inl (.inl here)
      · exact .inl (.inr ⟨_, rfl, below⟩)
      · exact .inr ⟨q, (Nat.add_assoc ..).symm, after⟩
    · rintro ((here | ⟨q, rfl, below⟩) | ⟨q, rfl, after⟩)
      · exact .inl here
      · exact .inr ⟨q, rfl, .inl below⟩
      · exact .inr ⟨_, Nat.add_assoc .., .inr ⟨q, rfl, after⟩⟩

/-- A character ends within the text. -/
theorem Has.add_size_le (has : t.Has p c) : p + c.utf8Size ≤ t.width := by
  obtain ⟨before, after, rfl, rfl⟩ := has
  rw [width_append, width_cons]
  omega

/-- Two characters that share a byte are one. -/
theorem Has.unique (first : t.Has p c) (second : t.Has q d) (below : p < q + d.utf8Size)
    (above : q < p + c.utf8Size) : p = q ∧ c = d := by
  induction t generalizing p q with
  | nil => exact absurd first not_has_nil
  | cons e rest ih =>
    have positive := e.utf8Size_pos
    rcases has_cons.mp first with ⟨rfl, rfl⟩ | ⟨p', rfl, first'⟩ <;>
      rcases has_cons.mp second with ⟨rfl, rfl⟩ | ⟨q', rfl, second'⟩
    · exact ⟨rfl, rfl⟩
    · omega
    · omega
    · obtain ⟨same, rfl⟩ := ih first' second' (by omega) (by omega)
      exact ⟨congrArg _ same, rfl⟩

/-- What starts where a character ends stands right behind it. -/
theorem head?_of_has {before after : Text}
    (has : Has (before ++ c :: after) (before.width + c.utf8Size) d) : after.head? = some d := by
  have positive := c.utf8Size_pos
  rcases has_append.mp has with within | ⟨q, same, behind⟩
  · have bound := within.add_size_le
    omega
  · rcases has_cons.mp behind with ⟨zero, -⟩ | ⟨r, more, ⟨front, rest, rfl, empty⟩⟩
    · omega
    · cases front with
      | nil => rfl
      | cons e front =>
        have first := e.utf8Size_pos
        rw [width_cons] at empty
        omega

/-- Blanks show nothing. -/
theorem not_ink_spaces {n : Nat} : ¬(spaces n).Ink p c := by
  rintro ⟨⟨before, after, split, -⟩, visible⟩
  have mem : c ∈ spaces n := split ▸ List.mem_append_right before List.mem_cons_self
  rw [List.eq_of_mem_replicate mem] at visible
  exact absurd visible (by decide)

theorem ink_cons : Ink (d :: t) p c ↔
    (p = 0 ∧ c = d ∧ isBlank d = false) ∨ ∃ q, p = d.utf8Size + q ∧ t.Ink q c := by
  simp only [Ink, has_cons]
  constructor
  · rintro ⟨⟨rfl, rfl⟩ | ⟨q, rfl, has⟩, visible⟩
    · exact .inl ⟨rfl, rfl, visible⟩
    · exact .inr ⟨q, rfl, has, visible⟩
  · rintro (⟨rfl, rfl, visible⟩ | ⟨q, rfl, has, visible⟩)
    · exact ⟨.inl ⟨rfl, rfl⟩, visible⟩
    · exact ⟨.inr ⟨q, rfl, has⟩, visible⟩

theorem ink_append :
    (s ++ t).Ink p c ↔ s.Ink p c ∨ ∃ q, p = s.width + q ∧ t.Ink q c := by
  simp only [Ink, has_append]
  constructor
  · rintro ⟨has | ⟨q, rfl, has⟩, visible⟩
    · exact .inl ⟨has, visible⟩
    · exact .inr ⟨q, rfl, has, visible⟩
  · rintro (⟨has, visible⟩ | ⟨q, rfl, has, visible⟩)
    · exact ⟨.inl has, visible⟩
    · exact ⟨.inr ⟨q, rfl, has⟩, visible⟩

/-- The byte at an offset of a text. -/
def byte? (t : Text) (p : Nat) : Option UInt8 := t.bytes.data[p]?

private theorem byte?_eq (t : Text) (p : Nat) :
    t.byte? p = (t.flatMap String.utf8EncodeChar)[p]? := by
  have whole : t.bytes = (t.flatMap String.utf8EncodeChar).toByteArray :=
    String.toByteArray_ofList
  rw [byte?, whole, List.data_toByteArray, List.getElem?_toArray]

private theorem length_flatMap_utf8EncodeChar (t : Text) :
    (t.flatMap String.utf8EncodeChar).length = t.width := by
  induction t with
  | nil => rfl
  | cons c rest ih =>
    rw [List.flatMap_cons, List.length_append, ih, String.length_utf8EncodeChar, width_cons]

/-- The bytes of a character stand in a text from where the character starts. -/
theorem Has.byte? {k : Nat} (has : t.Has p c) (inside : k < c.utf8Size) :
    t.byte? (p + k) = (String.utf8EncodeChar c)[k]? := by
  obtain ⟨before, after, rfl, rfl⟩ := has
  rw [byte?_eq, List.flatMap_append, List.flatMap_cons, ← length_flatMap_utf8EncodeChar,
    List.getElem?_append_right (Nat.le_add_right ..), Nat.add_sub_cancel_left,
    List.getElem?_append_left (by rwa [String.length_utf8EncodeChar])]

end FieldTables.Text
