import FieldTables.Proofs.Text.Identifier

/-!
# Words

The words of a text are its longest runs of name characters. A text that is put together has the
words of its parts wherever one part ends, or the next one starts, with a character that is in no
name.
-/

namespace FieldTables

namespace Text

variable {s t u word : Text} {c : Char}

/-- The longest runs of name characters. -/
def words (t : Text) : List Text :=
  (t.splitOnP fun c => !isNameCharacter c).filter fun run => !run.isEmpty

/-- No name goes on at the start of the text. -/
def startsApart (t : Text) : Bool := t.head?.all fun c => !isNameCharacter c

/-- No name goes on behind the text. -/
def endsApart (t : Text) : Bool := t.getLast?.all fun c => !isNameCharacter c

/-- No name goes on from one side of the text to the other. -/
def separates (t : Text) : Bool := !t.isEmpty && t.startsApart && t.endsApart

@[simp] theorem words_nil : words [] = [] := rfl

/-- Words are cut at every character that is in no name. -/
theorem words_append_cons (other : isNameCharacter c = false) :
    words (s ++ c :: t) = s.words ++ t.words := by
  have cut : (!isNameCharacter c) = true := by rw [other, Bool.not_false]
  rw [words, List.splitOnP_append_cons s t cut, List.filter_append, words, words]

theorem words_cons (other : isNameCharacter c = false) : words (c :: t) = t.words :=
  words_append_cons (s := []) other

theorem IsWord.words_eq (word : t.IsWord) : t.words = [t] := by
  have uncut : ∀ c ∈ t, (!isNameCharacter c) = false := fun c mem => by
    rw [word.isName c mem, Bool.not_true]
  rw [words, List.splitOnP_eq_singleton uncut]
  simp [word.ne_nil]

theorem words_append_of_startsApart (s : Text) (apart : t.startsApart = true) :
    words (s ++ t) = s.words ++ t.words := by
  cases t with
  | nil => simp
  | cons c rest =>
    have other : isNameCharacter c = false := by simpa [startsApart] using apart
    rw [words_append_cons other, words_cons other]

theorem words_append_of_endsApart (t : Text) (apart : s.endsApart = true) :
    words (s ++ t) = s.words ++ t.words := by
  rcases List.eq_nil_or_concat s with rfl | ⟨front, c, rfl⟩
  · simp
  · have other : isNameCharacter c = false := by simpa [endsApart] using apart
    rw [List.concat_eq_append, List.append_assoc, List.singleton_append, words_append_cons other,
      words_append_cons other, words_nil, List.append_nil]

/-- What separates two texts keeps their words apart. -/
theorem words_append_append (s t : Text) (apart : u.separates = true) :
    words (s ++ u ++ t) = s.words ++ u.words ++ t.words := by
  simp only [separates, Bool.and_eq_true, Bool.not_eq_true', List.isEmpty_eq_false_iff] at apart
  obtain ⟨⟨nonempty, first⟩, last⟩ := apart
  have ending : endsApart (s ++ u) = true := by
    rw [endsApart, List.getLast?_append_of_ne_nil s nonempty]
    exact last
  rw [words_append_of_endsApart t ending, words_append_of_startsApart s first]

/-- What is put together with a separator that has no words has the words of all parts. -/
theorem words_intercalate (separator : Text) (parts : List Text)
    (apart : separator.separates = true) (wordless : separator.words = []) :
    words (separator.intercalate parts) = parts.flatMap words := by
  induction parts with
  | nil => rfl
  | cons part rest ih =>
    cases rest with
    | nil => simp
    | cons next others =>
      rw [List.intercalate_cons_cons, words_append_append _ _ apart, wordless, List.append_nil, ih]
      exact List.flatMap_cons.symm

/-- The words of words are these words. -/
theorem flatMap_words {parts : List Text} (each : ∀ part ∈ parts, part.IsWord) :
    parts.flatMap words = parts := by
  have single : ∀ part ∈ parts, part.words = [part] := fun part mem => (each part mem).words_eq
  rw [List.flatMap_congr single, List.flatMap_singleton']

end Text

end FieldTables
