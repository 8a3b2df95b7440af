import FieldTables.Text.Character
import FieldTables.Text.UpperCase
import Mathlib.Data.List.Basic

/-!
# Names and lines

A text can be a name, of name characters only, or a line, without a line feed. What is put together
from names is a name, in upper case too, and what is put together from lines is a line.
-/

namespace FieldTables

namespace Text

variable {s t : Text} {c : Char}

/-- A text of name characters only. -/
def IsName (t : Text) : Prop := ∀ c ∈ t, isNameCharacter c = true

/-- A text on one line. -/
def OneLine (t : Text) : Prop := '\n' ∉ t

instance : Decidable t.IsName :=
  decidable_of_iff (t.all isNameCharacter = true) List.all_eq_true

instance : Decidable t.OneLine := inferInstanceAs (Decidable ('\n' ∉ t))

theorem IsName.oneLine (name : t.IsName) : t.OneLine := fun mem =>
  absurd (name '\n' mem) (by decide)

theorem IsName.append (first : s.IsName) (second : t.IsName) : IsName (s ++ t) := fun c mem =>
  (List.mem_append.mp mem).elim (first c) (second c)

theorem OneLine.append (first : s.OneLine) (second : t.OneLine) : OneLine (s ++ t) := fun mem =>
  (List.mem_append.mp mem).elim first second

theorem OneLine.of_subset (whole : t.OneLine) (sub : s ⊆ t) : s.OneLine := fun mem =>
  whole (sub mem)

/-- A text that has only spaces more than another one is on one line with it. -/
theorem OneLine.of_mem (whole : t.OneLine) (mem : ∀ c ∈ s, c = ' ' ∨ c ∈ t) :
    s.OneLine := fun has =>
  (mem _ has).elim (by decide) whole

/-- Name characters are ASCII. -/
theorem lt_of_isNameCharacter {c : Char} (name : isNameCharacter c = true) : c.toNat < 0x80 := by
  have among : (decide (c.val ≥ 'A'.val ∧ c.val ≤ 'Z'.val) ||
      decide (c.val ≥ 'a'.val) && decide (c.val ≤ 'z'.val) ||
      decide (c.val ≥ '0'.val) && decide (c.val ≤ '9'.val) || c == '_') = true := name
  simp only [Bool.or_eq_true, Bool.and_eq_true, beq_iff_eq, decide_eq_true_eq,
    UInt32.le_iff_toNat_le] at among
  rcases among with ((⟨-, most⟩ | ⟨-, most⟩) | ⟨-, most⟩) | rfl
  · exact Nat.lt_of_le_of_lt most (by decide)
  · exact Nat.lt_of_le_of_lt most (by decide)
  · exact Nat.lt_of_le_of_lt most (by decide)
  · decide

/-- The capital of a name character is one. -/
theorem isNameCharacter_toUpper {c : Char} (name : isNameCharacter c = true) :
    isNameCharacter c.toUpper = true := by
  have capital : ∀ code < 0x80, isNameCharacter (Char.ofNat code) = true →
      isNameCharacter (Char.ofNat code).toUpper = true := by decide +kernel
  have own := capital c.toNat (lt_of_isNameCharacter name)
  rw [Char.ofNat_toNat] at own
  exact own name

/-- The upper case of a name is a name. -/
theorem IsName.upper (name : t.IsName) : t.upper.IsName := by
  intro d mem
  obtain ⟨c, within, listed⟩ := List.mem_flatMap.mp mem
  rw [upperCharacter, if_pos (lt_of_isNameCharacter (name c within)), List.mem_singleton] at listed
  exact listed ▸ isNameCharacter_toUpper (name c within)

/-- What is put together from parts holds only characters of the parts and of what stands between
them. -/
theorem mem_intercalate {separator : Text} {parts : List Text} {c : Char}
    (mem : c ∈ separator.intercalate parts) : c ∈ separator ∨ ∃ part ∈ parts, c ∈ part := by
  induction parts with
  | nil => cases mem
  | cons part rest ih =>
    cases rest with
    | nil => exact .inr ⟨part, List.mem_cons_self, by simpa using mem⟩
    | cons next others =>
      rw [List.intercalate_cons_cons, List.append_assoc, List.mem_append, List.mem_append] at mem
      rcases mem with here | between | later
      · exact .inr ⟨part, List.mem_cons_self, here⟩
      · exact .inl between
      · exact (ih later).imp_right fun ⟨q, mem, has⟩ => ⟨q, List.mem_cons_of_mem part mem, has⟩

end Text

end FieldTables
