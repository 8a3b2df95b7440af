import FieldTables.Header.Json
import FieldTables.Proofs.Json.Reading
import FieldTables.Proofs.Text.Identifier

/-!
# Printing by the grammar

What is printed of a value is a text that the value may be written as: brackets are balanced, commas
stand between items and members and nowhere else, and what cannot stand in a string is escaped. This
holds at every depth, so it is shown for each kind of value from the values inside, and then for
fields, structures and headers.
-/

namespace FieldTables

namespace Json

variable {j : Json} {items : List Json} {members : List (Text × Json)} {d : Nat}

/-- Hexadecimal digits have their values. -/
theorem hexValue?_hexDigit {n : Nat} (small : n < 16) : hexValue? (Text.hexDigit n) = some n := by
  have each : ∀ n < 16, hexValue? (Text.hexDigit n) = some n := by decide
  exact each n small

/-- A character that is escaped gives its code. -/
theorem encodes_escaped (c : Char) : Encodes (Text.escaped c) c.toNat := by
  unfold Text.escaped
  split
  next same =>
    subst same
    exact .letter rfl
  split
  next same =>
    subst same
    exact .letter rfl
  split
  next same =>
    subst same
    exact .letter rfl
  split
  next same =>
    subst same
    exact .letter rfl
  split
  next same =>
    subst same
    exact .letter rfl
  split
  next same =>
    rw [same]
    exact .letter (c := '\x08') rfl
  split
  next same =>
    rw [same]
    exact .letter (c := '\x0c') rfl
  split
  next control =>
    refine .digits ?_
    have zero : hexValue? '0' = some 0 := rfl
    rw [hexCode?, zero, hexValue?_hexDigit (by omega), hexValue?_hexDigit (by omega)]
    have whole : c.toNat / 16 * 16 + c.toNat % 16 = c.toNat := by omega
    simpa using whole
  next quote backslash _ _ _ _ _ printable => exact .plain (by omega) quote backslash

/-- Characters that need no escape stand for themselves. -/
theorem contents_plain {t : Text} (plain : ∀ c ∈ t, 0x20 ≤ c.toNat ∧ c ≠ '"' ∧ c ≠ '\\') :
    Contents t (t.map Char.toNat) := by
  induction t with
  | nil => exact .nil
  | cons c rest ih =>
    obtain ⟨⟨printable, quote, backslash⟩, others⟩ := List.forall_mem_cons.mp plain
    exact .cons (.plain printable quote backslash) (ih others)

theorem contents_append {s t : Text} {front back : List Nat} (first : Contents s front)
    (second : Contents t back) : Contents (s ++ t) (front ++ back) := by
  induction first with
  | nil => exact second
  | cons code _ ih =>
    rw [List.append_assoc]
    exact .cons code ih

/-- A string denotes the text of its codes. -/
theorem isString_of_contents {t : Text} {found : List Nat} (contents : Contents t found) :
    IsString (textOfCodes? found) ('"' :: t ++ ['"']) :=
  .intro contents fun _ => textOfCodes?_eq_some_iff

/-- No character has the code of a surrogate. -/
theorem not_surrogate (c : Char) : isLead c.toNat = false ∧ isTrail c.toNat = false := by
  have valid := c.valid
  rw [UInt32.isValidChar, Nat.isValidChar] at valid
  have same : c.val.toNat = c.toNat := rfl
  rw [same] at valid
  simp only [isLead, isTrail, Bool.and_eq_false_iff, decide_eq_false_iff_not]
  omega

/-- A quoted text is a string that denotes the text. -/
theorem isString_quoted (t : Text) : IsString (some t) t.quoted := by
  have contents : Contents (t.flatMap Text.escaped) (t.map Char.toNat) := by
    induction t with
    | nil => exact .nil
    | cons c rest ih => exact .cons (encodes_escaped c) ih
  have denotes : Denotes (t.map Char.toNat) t := by
    clear contents
    induction t with
    | nil => exact .nil
    | cons c rest ih =>
      have one := Denotes.one (not_surrogate c).1 (not_surrogate c).2 ih
      rwa [Char.ofNat_toNat] at one
  have is := isString_of_contents contents
  rwa [textOfCodes?_eq_some_iff.mpr denotes] at is

example : Text.quoted "2*\"\\\u001f".toList = "\"2*\\\"\\\\\\u001f\"".toList := by decide

theorem isDigits_decimal (n : Nat) : IsDigits (Text.decimal n) :=
  ⟨Nat.toDigits_ne_nil, fun _ mem => Nat.isDigit_of_mem_toDigits (by decide) (by decide) mem⟩

/-- The digits of a number that is not zero do not start with a zero. -/
theorem head?_decimal {n : Nat} (positive : 0 < n) : (Text.decimal n).head? ≠ some '0' := by
  unfold Text.decimal
  induction n using Nat.strongRecOn with
  | ind n ih =>
    rcases Nat.lt_or_ge n 10 with small | large
    · have each : ∀ n < 10, 0 < n → Nat.digitChar n ≠ '0' := by decide
      rw [Nat.toDigits_of_lt_base small, List.head?_cons]
      exact fun same => each n small positive (Option.some.inj same)
    · have front := ih (n / 10) (by omega) (by omega)
      rwa [Nat.toDigits_of_base_le (by decide) large,
        List.head?_append_of_ne_nil _ Nat.toDigits_ne_nil]

/-- The digits of a number are one by the grammar. -/
theorem isNumber_decimal (n : Nat) : IsNumber (Text.decimal n) := by
  have isWhole : IsWhole (Text.decimal n) := by
    rcases Nat.eq_zero_or_pos n with rfl | positive
    · exact .zero
    · exact .digits (isDigits_decimal n) (head?_decimal positive)
  have is := IsNumber.intro (.inl rfl) isWhole .absent .absent
  rwa [List.nil_append, List.append_nil, List.append_nil] at is

/-- A value that is printed by the grammar at every depth. -/
def Printable (j : Json) : Prop := ∀ depth, Written (.value j) (j.printed depth)

theorem blank_nil : Blank [] := List.forall_mem_nil _

/-- No blanks are needed around a value. -/
theorem Written.alone {t : Text} (value : Written (.value j) t) : Written (.element j) t := by
  have whole := Written.element blank_nil value blank_nil
  rwa [List.append_nil] at whole

theorem blank_newLine (depth : Nat) : Blank (newLine depth) := by
  refine List.forall_mem_cons.mpr ⟨rfl, fun c mem => ?_⟩
  cases List.eq_of_mem_replicate mem
  rfl

theorem printable_ofText (t : Text) : Printable (.ofText t) := fun _ => .string (isString_quoted t)

theorem printable_ofText? (t : Option Text) : Printable (.ofText? t) := by
  cases t with
  | none => exact fun _ => .null
  | some t => exact printable_ofText t

theorem printable_ofNat (n : Nat) : Printable (.ofNat n) := fun _ => .number (isNumber_decimal n)

/-- Items are printed with a comma and a new line in front of all but the first. -/
theorem written_printedItems {item : Json} {rest : List Json} {back : Text}
    (each : ∀ j ∈ item :: rest, Printable j) (blank : Blank back) :
    Written (.elements (item :: rest))
      (newLine d ++ item.printed d ++ (printedItems d rest ++ back)) := by
  induction rest generalizing item with
  | nil =>
    obtain ⟨here, -⟩ := List.forall_mem_cons.mp each
    exact .lastElement (.element (blank_newLine d) (here d) blank)
  | cons next rest ih =>
    obtain ⟨here, later⟩ := List.forall_mem_cons.mp each
    have first : Written (.element item) (newLine d ++ item.printed d ++ []) :=
      .element (blank_newLine d) (here d) blank_nil
    have whole := Written.elements first (ih later)
    rw [List.append_nil] at whole
    simpa [printedItems] using whole

theorem printable_array (each : ∀ j ∈ items, Printable j) : Printable (.array items) := by
  intro depth
  cases items with
  | nil => exact .noItems blank_nil
  | cons item rest =>
    have inside := written_printedItems (d := depth + 1) each (blank_newLine depth)
    simpa [printed] using Written.array inside

theorem printedString_some (t : Text) : printedString (some t) = t.quoted := rfl

/-- A member is printed with a new line in front and a space behind the colon. -/
theorem written_printedMember {name : Text} {back : Text} (value : Printable j)
    (blank : Blank back) :
    Written (.member (some name, j))
      (newLine d ++ printedString (some name) ++ ": ".toList ++ j.printed d ++ back) := by
  have space : Blank [' '] := List.forall_mem_singleton.mpr rfl
  have whole := Written.member (blank_newLine d) (isString_quoted name) blank_nil
    (.element space (value d) blank)
  have colon : ": ".toList = ':' :: [' '] := by decide
  rw [colon, printedString_some]
  simpa using whole

/-- Members are printed with a comma and a new line in front of all but the first. -/
theorem written_printedMembers {first : Text × Json} {rest : List (Text × Json)} {back : Text}
    (each : ∀ m ∈ first :: rest, Printable m.2) (blank : Blank back) :
    Written (.members ((first :: rest).map fun m => (some m.1, m.2)))
      (newLine d ++ printedString (some first.1) ++ ": ".toList ++ first.2.printed d ++
        (printedMembers d (rest.map fun m => (some m.1, m.2)) ++ back)) := by
  induction rest generalizing first with
  | nil =>
    obtain ⟨here, -⟩ := List.forall_mem_cons.mp each
    exact .lastMember (written_printedMember here blank)
  | cons next rest ih =>
    obtain ⟨here, later⟩ := List.forall_mem_cons.mp each
    have alone : Written (.member (some first.1, first.2))
        (newLine d ++ printedString (some first.1) ++ ": ".toList ++ first.2.printed d ++ []) :=
      written_printedMember here blank_nil
    have whole := Written.members alone (ih later)
    rw [List.append_nil] at whole
    simpa [printedMembers] using whole

theorem printable_ofMembers (each : ∀ m ∈ members, Printable m.2) :
    Printable (.ofMembers members) := by
  intro depth
  cases members with
  | nil => exact .noMembers blank_nil
  | cons m rest =>
    have inside := written_printedMembers (d := depth + 1) each (blank_newLine depth)
    simpa [printed, ofMembers] using Written.object inside

end Json

open Json

theorem Field.printable_toJson (f : Field) : Printable f.toJson := by
  have path : Printable (.array (f.path.map .ofText)) :=
    printable_array (List.forall_mem_map.mpr fun t _ => printable_ofText t)
  refine printable_ofMembers ?_
  simp only [List.forall_mem_cons]
  exact ⟨printable_ofText _, printable_ofNat _, printable_ofText _, printable_ofText? _,
    printable_ofText? _, path, nofun⟩

theorem Structure.printable_toJson (s : Structure) : Printable s.toJson := by
  have fields : Printable (.ofMembers (s.fields.entries.map fun f => (f.name, f.toJson))) :=
    printable_ofMembers (List.forall_mem_map.mpr fun f _ => f.printable_toJson)
  refine printable_ofMembers ?_
  simp only [List.forall_mem_cons]
  exact ⟨printable_ofText _, printable_ofNat _, fields, nofun⟩

/-- A header is printed by the grammar. -/
theorem Header.printable_toJson (h : Header) : Printable h.toJson := by
  have structures : Printable (.ofMembers (h.entries.map fun s => (s.name, s.toJson))) :=
    printable_ofMembers (List.forall_mem_map.mpr fun s _ => s.printable_toJson)
  exact printable_ofMembers (List.forall_mem_singleton.mpr structures)

end FieldTables
