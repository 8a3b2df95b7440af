import FieldTables.Proofs.Text.Position
import FieldTables.Source.Wrapper

/-!
# Union openings

A union opening is the word `union`, where no other word runs into it, with its brace after nothing
but blanks. Openings do not overlap, so the ones that are blanked out from left to right are all
that there are, and everything else stays where it is.
-/

namespace FieldTables.Wrapper

open Text

variable {afterWord : Bool} {t : Text} {p : Nat} {c : Char}

/-- The text of a union opening. -/
def IsOpening (t : Text) : Prop :=
  ∃ blanks, (∀ c ∈ blanks, isBlank c = true) ∧ t = keyword ++ blanks ++ ['{']

/-- A byte of a text is part of a union opening, in front of which no word character stands. -/
def InOpening (t : Text) (p : Nat) : Prop :=
  ∃ before opening after, t = before ++ (opening ++ after) ∧ IsOpening opening ∧
    (∀ c ∈ before.getLast?, isWordCharacter c = false) ∧
      before.width ≤ p ∧ p < before.width + opening.width

/-- An opening is made of letters, blanks and its brace. -/
theorem IsOpening.mem {opening : Text} (is : IsOpening opening) (mem : c ∈ opening) :
    c ∈ keyword ∨ isBlank c = true ∨ c = '{' := by
  obtain ⟨blanks, blank, rfl⟩ := is
  rw [List.mem_append, List.mem_append, List.mem_singleton, or_assoc] at mem
  exact mem.imp_right (Or.imp_left (blank c))

/-- A character within an opening is one of its letters, a blank or its brace. -/
theorem InOpening.mem (inside : InOpening t p) (has : t.Has p c) :
    c ∈ keyword ∨ isBlank c = true ∨ c = '{' := by
  obtain ⟨before, opening, after, rfl, is, -, lower, upper⟩ := inside
  have positive := c.utf8Size_pos
  rcases has_append.mp has with front | ⟨q, rfl, behind⟩
  · have fits := front.add_size_le
    omega
  · rcases has_append.mp behind with ⟨start, rest, rfl, -⟩ | ⟨r, rfl, -⟩
    · exact is.mem (List.mem_append_right start List.mem_cons_self)
    · omega

/-- Whether a text that follows a word character or not ends in a word character. -/
def endsWord (afterWord : Bool) (t : Text) : Bool :=
  (t.getLast?.map isWordCharacter).getD afterWord

theorem endsWord_cons (c : Char) (t : Text) :
    endsWord afterWord (c :: t) = endsWord (isWordCharacter c) t := by
  unfold endsWord
  cases t with
  | nil => rfl
  | cons d rest => rw [List.getLast?_cons_cons, List.getLast?_eq_some_getLast (by simp)]; rfl

/-- A byte is part of a union opening of a text that follows a word character or not. -/
private def InOpeningFrom (afterWord : Bool) (t : Text) (p : Nat) : Prop :=
  ∃ before opening after, t = before ++ (opening ++ after) ∧ IsOpening opening ∧
    endsWord afterWord before = false ∧ before.width ≤ p ∧ p < before.width + opening.width

private theorem inOpeningFrom_false : InOpeningFrom false t p ↔ InOpening t p := by
  have ends : ∀ before : Text, endsWord false before = false ↔
      ∀ c ∈ before.getLast?, isWordCharacter c = false := by
    intro before
    unfold endsWord
    cases before.getLast? <;> simp
  simp only [InOpeningFrom, InOpening, ends]

/-- An opening is found exactly where one starts, with all of its characters. -/
theorem opening?_eq_some_iff {n : Nat} :
    opening? t = some n ↔
      ∃ opening after, t = opening ++ after ∧ IsOpening opening ∧ opening.length = n := by
  constructor
  · intro found
    unfold opening? at found
    split at found
    next starts =>
      obtain ⟨rest, rfl⟩ := List.isPrefixOf_iff_prefix.mp starts
      rw [List.drop_left] at found
      dsimp only at found
      split at found
      next after brace =>
        cases found
        refine ⟨keyword ++ indent rest ++ ['{'], after, ?_, ⟨indent rest, ?_, rfl⟩, ?_⟩
        · conv_lhs => rw [← indent_append_trimStart rest, brace]
          simp
        · exact fun c mem => List.all_eq_true.mp List.all_takeWhile c mem
        · simp [Nat.add_assoc]
      next => cases found
    next => cases found
  · rintro ⟨_, after, rfl, ⟨blanks, blank, rfl⟩, rfl⟩
    have shape : keyword ++ blanks ++ ['{'] ++ after = keyword ++ (blanks ++ '{' :: after) := by
      simp
    have starts : keyword.isPrefixOf (keyword ++ (blanks ++ '{' :: after)) = true :=
      List.isPrefixOf_iff_prefix.mpr (List.prefix_append ..)
    have visible : ¬isBlank '{' = true := by decide
    have behind : trimStart (blanks ++ '{' :: after) = '{' :: after := by
      rw [trimStart, List.dropWhile_append_of_pos blank, List.dropWhile_cons_of_neg visible]
    have between : indent (blanks ++ '{' :: after) = blanks := by
      rw [indent, List.takeWhile_append_of_pos blank, List.takeWhile_cons_of_neg visible,
        List.append_nil]
    rw [shape, opening?, if_pos starts, List.drop_left]
    dsimp only
    rw [behind, between]
    simp [Nat.add_assoc]

/-- An opening starts with the only letter `u` in it. -/
theorem IsOpening.exists_tail {opening : Text} (is : IsOpening opening) :
    ∃ tail, opening = 'u' :: tail ∧ ∀ c ∈ tail, c ≠ 'u' := by
  obtain ⟨blanks, blank, rfl⟩ := is
  refine ⟨"nion".toList ++ blanks ++ ['{'], rfl, ?_⟩
  rintro c mem rfl
  simp at mem
  exact absurd (blank 'u' mem) (by decide)

/-- What starts with an opening goes on with its other characters, none of which starts one. -/
private theorem exists_of_opening?_cons {n : Nat} (found : opening? (c :: t) = some n) :
    c = 'u' ∧ ∃ m, n = m + 1 ∧ m ≤ t.length ∧ ∀ d ∈ t.take m, d ≠ 'u' := by
  obtain ⟨opening, after, split, is, rfl⟩ := opening?_eq_some_iff.mp found
  obtain ⟨tail, rfl, others⟩ := is.exists_tail
  cases split
  refine ⟨rfl, tail.length, rfl, by simp, ?_⟩
  rwa [List.append_eq, List.take_left]

/-- A byte is part of an opening at the start of a text, or of one behind the first character. -/
private theorem inOpeningFrom_cons : InOpeningFrom afterWord (c :: t) p ↔
    (∃ n, (if afterWord then none else opening? (c :: t)) = some n ∧
      p < width ((c :: t).take n)) ∨
    ∃ q, p = c.utf8Size + q ∧ InOpeningFrom (isWordCharacter c) t q := by
  constructor
  · rintro ⟨before, opening, after, split, is, ends, lower, upper⟩
    cases before with
    | nil =>
      have outside : afterWord = false := ends
      refine .inl ⟨opening.length, ?_, ?_⟩
      · rw [outside, if_neg Bool.false_ne_true]
        exact opening?_eq_some_iff.mpr ⟨opening, after, split, is, rfl⟩
      · rw [split, List.nil_append, List.take_left]
        simpa using upper
    | cons d before =>
      cases split
      rw [endsWord_cons] at ends
      rw [width_cons] at lower upper
      exact .inr ⟨p - c.utf8Size, by omega, before, opening, after, rfl, is, ends, by omega,
        by omega⟩
  · rintro (⟨n, found, upper⟩ | ⟨q, rfl, before, opening, after, rfl, is, ends, lower, upper⟩)
    · cases afterWord with
      | true => cases found
      | false =>
        obtain ⟨opening, after, split, is, rfl⟩ := opening?_eq_some_iff.mp found
        refine ⟨[], opening, after, split, is, rfl, Nat.zero_le _, ?_⟩
        rw [split, List.take_left] at upper
        simpa using upper
    · refine ⟨c :: before, opening, after, rfl, is, (endsWord_cons c before).trans ends, ?_, ?_⟩
      all_goals
        rw [width_cons]
        omega

/-- No opening starts at a character that is not its first letter. -/
private theorem inOpeningFrom_cons_of_ne (other : c ≠ 'u') : InOpeningFrom afterWord (c :: t) p ↔
    ∃ q, p = c.utf8Size + q ∧ InOpeningFrom (isWordCharacter c) t q := by
  rw [inOpeningFrom_cons, or_iff_right]
  rintro ⟨n, found, -⟩
  cases afterWord with
  | true => cases found
  | false => exact other (exists_of_opening?_cons found).1

theorem blankFrom_none (t : Text)
    (found : (if afterWord then none else opening? (c :: t)) = none) :
    blankFrom afterWord 0 (c :: t) = c :: blankFrom (isWordCharacter c) 0 t := by
  simp only [blankFrom, found]

theorem blankFrom_some (t : Text) {n : Nat}
    (found : (if afterWord then none else opening? (c :: t)) = some (n + 1)) :
    blankFrom afterWord 0 (c :: t) = spaces c.utf8Size ++ blankFrom (isWordCharacter c) n t := by
  simp only [blankFrom, found, Nat.add_sub_cancel]

/-- Blanking shows what is not part of an opening, the one that is under way included. -/
private theorem ink_blankFrom {left : Nat} (fits : left ≤ t.length)
    (started : ∀ c ∈ t.take left, c ≠ 'u') :
    (blankFrom afterWord left t).Ink p c ↔
      t.Ink p c ∧ width (t.take left) ≤ p ∧ ¬InOpeningFrom afterWord t p := by
  induction t generalizing afterWord left p with
  | nil => exact iff_of_false (fun ink => not_has_nil ink.1) fun ink => not_has_nil ink.1.1
  | cons d rest ih =>
    have positive := d.utf8Size_pos
    have below : ∀ left q, left ≤ rest.length → (∀ c ∈ rest.take left, c ≠ 'u') →
        ((blankFrom (isWordCharacter d) left rest).Ink q c ↔ Ink rest q c ∧
          width (rest.take left) ≤ q ∧ ¬InOpeningFrom (isWordCharacter d) rest q) :=
      fun _ _ fits started => ih fits started
    cases left with
    | succ n =>
      have step : blankFrom afterWord (n + 1) (d :: rest) =
          spaces d.utf8Size ++ blankFrom (isWordCharacter d) n rest := rfl
      -- What is blanked of an opening that is under way has no `u`, so no other one starts in it.
      have other : d ≠ 'u' := started d (by simp)
      have free : ∀ c ∈ rest.take n, c ≠ 'u' := fun c mem =>
        started c (List.mem_cons_of_mem d mem)
      rw [step, ink_append, width_spaces, or_iff_right not_ink_spaces,
        inOpeningFrom_cons_of_ne other, ink_cons, List.take_succ_cons, width_cons]
      simp only [below n _ (Nat.le_of_succ_le_succ fits) free]
      grind
    | zero =>
      rw [inOpeningFrom_cons]
      cases found : if afterWord then none else opening? (d :: rest) with
      | none =>
        rw [blankFrom_none rest found, ink_cons, ink_cons]
        simp only [below 0 _ (Nat.zero_le _) (by simp)]
        simp only [List.take_zero, width_nil, Nat.zero_le, true_and, reduceCtorEq, false_and,
          exists_const, false_or, not_exists, not_and]
        grind
      | some n =>
        have starts : opening? (d :: rest) = some n := by
          cases afterWord with
          | true => cases found
          | false => exact found
        obtain ⟨-, m, rfl, fits, others⟩ := exists_of_opening?_cons starts
        rw [blankFrom_some rest found, ink_append, width_spaces, or_iff_right not_ink_spaces,
          ink_cons]
        simp only [below m _ fits others]
        simp only [List.take_zero, width_nil, Nat.zero_le, Option.some.injEq, exists_eq_left',
          List.take_succ_cons, width_cons, not_or, Nat.not_lt, not_exists, not_and, true_and]
        grind

/-- Blanking leaves the characters outside union openings, where they are. -/
theorem ink_blank_iff : (blank t).Ink p c ↔ t.Ink p c ∧ ¬InOpening t p := by
  rw [blank, ink_blankFrom (Nat.zero_le _) (by simp), inOpeningFrom_false]
  simp

/-- Spaces at the end of a text are part of no opening and complete none. -/
theorem inOpening_append_spaces {n : Nat} : InOpening (t ++ spaces n) p ↔ InOpening t p := by
  constructor
  · rintro ⟨before, _, after, split, ⟨blanks, blank, rfl⟩, ends, lower, upper⟩
    have shape : before ++ (keyword ++ blanks ++ ['{'] ++ after) =
        (before ++ keyword ++ blanks ++ ['{']) ++ after := by simp
    rw [shape] at split
    rcases List.append_eq_append_iff.mp split with ⟨rest, whole, tail⟩ | ⟨rest, whole, -⟩
    · -- The brace would have to be one of the spaces, unless nothing of them is used.
      rcases List.eq_nil_or_concat rest with rfl | ⟨front, last, rfl⟩
      · rw [List.append_nil] at whole
        exact ⟨before, _, [], by rw [← whole]; simp, ⟨blanks, blank, rfl⟩, ends, lower, upper⟩
      · rw [List.concat_eq_append, ← List.append_assoc] at whole
        have brace : '{' = last := (List.append_inj' whole rfl).2 |> List.singleton_inj.mp
        have mem : '{' ∈ spaces n := by
          rw [tail, brace]
          simp
        exact absurd (List.eq_of_mem_replicate mem) (by decide)
    · refine ⟨before, _, rest, ?_, ⟨blanks, blank, rfl⟩, ends, lower, upper⟩
      rw [whole]
      simp
  · rintro ⟨before, opening, after, rfl, is, ends, lower, upper⟩
    exact ⟨before, opening, after ++ spaces n, by simp, is, ends, lower, upper⟩

/-- Blanking leaves characters of the text and spaces. -/
theorem mem_blankFrom (afterWord : Bool) (left : Nat) (t : Text) :
    ∀ c ∈ blankFrom afterWord left t, c = ' ' ∨ c ∈ t := by
  fun_induction blankFrom afterWord left t <;> simp_all [spaces] <;> grind

end FieldTables.Wrapper
