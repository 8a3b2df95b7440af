import FieldTables.Proofs.Text.Name

/-!
# Identifiers among words

A word is a name that is not empty, and it is an identifier exactly when it starts with no digit. So
a name that is put behind an identifier keeps it one, and upper case makes and loses none. What is
in upper case has no small letter.
-/

namespace FieldTables

namespace Text

variable {s t : Text} {c : Char}

/-- Whether a text starts with a digit. -/
def startsWithDigit (t : Text) : Bool := t.head?.any Char.isDigit

/-- A name that is not empty. -/
structure IsWord (t : Text) : Prop where
  ne_nil : t ≠ []
  isName : t.IsName

/-- A text without small ASCII letters. -/
def Capital (t : Text) : Prop := ∀ c ∈ t, c.isLower = false

theorem capital_iff : t.Capital ↔ t.any Char.isLower = false := by
  simp [Capital]

instance : Decidable t.Capital := decidable_of_iff' _ capital_iff

/-- A letter is a name character. -/
theorem isNameCharacter_of_isLetter (letter : isLetter c = true) : isNameCharacter c = true := by
  simp only [isLetter, isNameCharacter, Char.isAlphanum, Bool.or_eq_true] at letter ⊢
  exact letter.imp_left .inl

/-- An identifier can start with the name characters that are no digits. -/
theorem isLetter_iff : isLetter c = true ↔ isNameCharacter c = true ∧ c.isDigit = false := by
  have among : ∀ code < 0x80, isNameCharacter (Char.ofNat code) = true →
      isLetter (Char.ofNat code) = !(Char.ofNat code).isDigit := by decide +kernel
  have own : isNameCharacter c = true → isLetter c = !c.isDigit := fun name => by
    have here := among c.toNat (lt_of_isNameCharacter name)
    rw [Char.ofNat_toNat] at here
    exact here name
  constructor
  · intro letter
    have name := isNameCharacter_of_isLetter letter
    exact ⟨name, by simpa [own name] using letter⟩
  · rintro ⟨name, other⟩
    simp [own name, other]

/-- A word is an identifier exactly when it starts with no digit. -/
theorem IsWord.isIdentifier_eq (word : t.IsWord) : t.isIdentifier = !t.startsWithDigit := by
  obtain ⟨nonempty, name⟩ := word
  cases t with
  | nil => exact absurd rfl nonempty
  | cons c rest =>
    obtain ⟨first, others⟩ := List.forall_mem_cons.mp name
    have letter : isLetter c = !c.isDigit := by
      rw [Bool.eq_iff_iff, isLetter_iff, Bool.not_eq_true']
      exact and_iff_right first
    rw [isIdentifier, List.all_eq_true.mpr others, Bool.and_true, letter]
    rfl

/-- An identifier is a word. -/
theorem isWord_of_isIdentifier (identifier : t.isIdentifier = true) : t.IsWord := by
  cases t with
  | nil => cases identifier
  | cons c rest =>
    rw [isIdentifier, Bool.and_eq_true, List.all_eq_true] at identifier
    exact ⟨List.cons_ne_nil c rest,
      List.forall_mem_cons.mpr ⟨isNameCharacter_of_isLetter identifier.1, identifier.2⟩⟩

theorem isName_of_isIdentifier (identifier : t.isIdentifier = true) : t.IsName :=
  (isWord_of_isIdentifier identifier).isName

theorem IsWord.append (word : s.IsWord) (name : t.IsName) : IsWord (s ++ t) :=
  ⟨List.append_ne_nil_of_left_ne_nil word.ne_nil t, word.isName.append name⟩

theorem startsWithDigit_append (nonempty : s ≠ []) :
    startsWithDigit (s ++ t) = s.startsWithDigit := by
  rw [startsWithDigit, List.head?_append_of_ne_nil s nonempty, startsWithDigit]

/-- A name behind a word makes an identifier unless the word starts with a digit. -/
theorem IsWord.isIdentifier_append (word : s.IsWord) (name : t.IsName) :
    isIdentifier (s ++ t) = !s.startsWithDigit := by
  rw [(word.append name).isIdentifier_eq, startsWithDigit_append word.ne_nil]

/-- A name behind an identifier makes an identifier. -/
theorem isIdentifier_append (identifier : s.isIdentifier = true) (name : t.IsName) :
    isIdentifier (s ++ t) = true := by
  have word := isWord_of_isIdentifier identifier
  rw [word.isIdentifier_append name, ← word.isIdentifier_eq, identifier]

/-- The upper case of a name is made character by character. -/
theorem IsName.upper_eq_map (name : t.IsName) : t.upper = t.map Char.toUpper := by
  have each : ∀ c ∈ t, upperCharacter c = [c.toUpper] := fun c mem => by
    rw [upperCharacter, if_pos (lt_of_isNameCharacter (name c mem))]
  rw [Text.upper, List.flatMap_congr each, ← List.map_eq_flatMap]

theorem IsName.length_upper (name : t.IsName) : t.upper.length = t.length := by
  rw [name.upper_eq_map, List.length_map]

/-- The upper case of a word is a word. -/
theorem IsWord.upper (word : t.IsWord) : t.upper.IsWord := by
  refine ⟨?_, word.isName.upper⟩
  rw [word.isName.upper_eq_map]
  exact fun empty => word.ne_nil (List.map_eq_nil_iff.mp empty)

/-- Upper case makes and loses no digit. -/
theorem IsName.startsWithDigit_upper (name : t.IsName) :
    t.upper.startsWithDigit = t.startsWithDigit := by
  have same : ∀ code < 0x80,
      (Char.ofNat code).toUpper.isDigit = (Char.ofNat code).isDigit := by decide +kernel
  rw [name.upper_eq_map]
  cases t with
  | nil => rfl
  | cons c rest =>
    have own := same c.toNat (lt_of_isNameCharacter (name c List.mem_cons_self))
    rw [Char.ofNat_toNat] at own
    simp only [startsWithDigit, List.map_cons, List.head?_cons, Option.any_some, own]

/-- The capital of a name character is no small letter. -/
theorem isLower_toUpper (name : isNameCharacter c = true) : c.toUpper.isLower = false := by
  have capital : ∀ code < 0x80, (Char.ofNat code).toUpper.isLower = false := by decide +kernel
  have own := capital c.toNat (lt_of_isNameCharacter name)
  rwa [Char.ofNat_toNat] at own

theorem Capital.append (first : s.Capital) (second : t.Capital) : Capital (s ++ t) :=
  List.forall_mem_append.mpr ⟨first, second⟩

theorem IsName.capital_upper (name : t.IsName) : t.upper.Capital := by
  rw [name.upper_eq_map]
  exact List.forall_mem_map.mpr fun c mem => isLower_toUpper (name c mem)

/-- A number is a word that starts with a digit. -/
theorem isWord_decimal (n : Nat) : (decimal n).IsWord ∧ (decimal n).startsWithDigit = true := by
  have nonempty : decimal n ≠ [] := Nat.toDigits_ne_nil
  have digits : ∀ c ∈ decimal n, c.isDigit = true := fun c mem =>
    Nat.isDigit_of_mem_toDigits (by decide) (by decide) mem
  refine ⟨⟨nonempty, fun c mem => ?_⟩, ?_⟩
  · rw [isNameCharacter, Char.isAlphanum, digits c mem, Bool.or_true, Bool.true_or]
  · obtain ⟨c, rest, shape⟩ := List.exists_cons_of_ne_nil nonempty
    rw [startsWithDigit, shape, List.head?_cons, Option.any_some]
    exact digits c (shape ▸ List.mem_cons_self)

end Text

end FieldTables
