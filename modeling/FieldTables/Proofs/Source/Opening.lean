import FieldTables.Proofs.Source.Seam
import FieldTables.Proofs.Source.Wrapper

/-!
# Union openings at a seam

Blanks at a loose seam make an opening longer that goes over the seam, and they change no other. So
a line has its openings blanked out as before, with blanks more, unless a word goes on with an
opening at the seam.
-/

namespace FieldTables

open Text

namespace Wrapper

variable {s t gap : Text} {c : Char} {n left : Nat} {afterWord : Bool}

/-- A blank is no word character. -/
theorem not_isWordCharacter_of_isBlank (blank : isBlank c = true) : isWordCharacter c = false := by
  have among : ∀ code ∈ blankCodes, isWordCharacter (Char.ofNat code) = false := by
    decide +kernel
  have own := among c.toNat (List.contains_iff_mem.mp blank)
  rwa [Char.ofNat_toNat] at own

/-- What starts with the keyword is an opening when a brace is behind it after blanks. -/
private theorem opening?_keyword (rest : Text) : opening? (keyword ++ rest) =
    match trimStart rest with
    | '{' :: _ => some (keyword.length + (indent rest).length + 1)
    | _ => none := by
  have starts : keyword.isPrefixOf (keyword ++ rest) = true :=
    List.isPrefixOf_iff_prefix.mpr (List.prefix_append ..)
  have behind : (keyword ++ rest).drop keyword.length = rest := List.drop_left
  refine (if_pos starts).trans ?_
  exact congrArg (fun after => match trimStart after with
    | '{' :: _ => some (keyword.length + (indent after).length + 1)
    | _ => none) behind

/-- Blanks at a seam keep it out of identifiers. -/
private theorem not_inWord_insert (apart : ¬InWord s t) (blank : ∀ c ∈ gap, isBlank c = true) :
    ¬InWord s (gap ++ t) := by
  rintro ⟨word, suffix, identifier, joined⟩
  cases gap with
  | nil => exact apart ⟨word, suffix, identifier, joined⟩
  | cons c rest =>
    have other := isNameCharacter_of_isBlank (blank c List.mem_cons_self)
    simp [startsApart, other] at joined

/-- The keyword that starts in front of a seam ends there too, unless the seam is inside it. -/
private theorem keyword_prefix_of_append (full : s ≠ []) (apart : ¬InWord s t)
    (starts : keyword <+: s ++ t) : keyword <+: s := by
  rcases List.prefix_or_prefix_of_prefix starts (List.prefix_append s t) with whole | ⟨rest, cut⟩
  · exact whole
  have identifier : isIdentifier (s ++ rest) = true := by rw [cut]; decide
  rw [isIdentifier_append_iff full] at identifier
  rw [← cut, List.prefix_append_right_inj] at starts
  obtain ⟨behind, rfl⟩ := starts
  cases rest with
  | nil => exact ⟨[], by rw [← cut, List.append_nil, List.append_nil]⟩
  | cons c rest =>
    have name : isNameCharacter c = true := identifier.2 c List.mem_cons_self
    exact absurd ⟨s, List.suffix_refl s, identifier.1, by simp [startsApart, name]⟩ apart

/-- Blanks at a seam make an opening longer that goes over the seam, and change no other. -/
theorem opening?_insert (full : s ≠ []) (apart : ¬InWord s t)
    (blank : ∀ c ∈ gap, isBlank c = true) :
    opening? (s ++ (gap ++ t)) =
      (opening? (s ++ t)).map fun n => if n ≤ s.length then n else n + gap.length := by
  by_cases long : keyword <+: s
  · obtain ⟨s, rfl⟩ := long
    rw [List.append_assoc, List.append_assoc, opening?_keyword, opening?_keyword]
    by_cases bare : ∀ c ∈ s, isBlank c = true
    · -- Nothing but blanks stands between the keyword and the seam.
      have skip : ∀ u : Text, trimStart (s ++ u) = trimStart u ∧ indent (s ++ u) = s ++ indent u :=
        fun u => ⟨List.dropWhile_append_of_pos bare, List.takeWhile_append_of_pos bare⟩
      have skipGap : trimStart (gap ++ t) = trimStart t ∧ indent (gap ++ t) = gap ++ indent t :=
        ⟨List.dropWhile_append_of_pos blank, List.takeWhile_append_of_pos blank⟩
      rw [(skip _).1, (skip _).2, (skip _).1, (skip _).2, skipGap.1, skipGap.2]
      cases front : trimStart t with
      | nil => rfl
      | cons d rest =>
        by_cases brace : d = '{'
        · subst brace
          have beyond : ¬keyword.length + (s ++ indent t).length + 1 ≤ (keyword ++ s).length := by
            rw [List.length_append, List.length_append]
            omega
          refine congrArg some ?_
          dsimp only
          rw [if_neg beyond]
          simp only [List.length_append]
          omega
        · simp [brace]
    · -- What stands between them decides whether it is an opening, and that ends before the seam.
      have front : trimStart s ≠ [] := fun empty => bare fun c mem => by
        have whole := indent_append_trimStart s
        rw [empty, List.append_nil] at whole
        exact List.mem_takeWhile_imp (whole ▸ mem)
      obtain ⟨d, rest, shape⟩ := List.exists_cons_of_ne_nil front
      have whole := congrArg List.length (indent_append_trimStart s)
      rw [shape, List.length_append, List.length_cons] at whole
      have stop : ∀ u : Text,
          trimStart (s ++ u) = d :: (rest ++ u) ∧ indent (s ++ u) = indent s := by
        intro u
        constructor
        · rw [trimStart, List.dropWhile_append, ← trimStart, shape]
          rfl
        · rw [indent, List.takeWhile_append, if_neg, indent]
          rw [← indent]
          omega
      rw [(stop _).1, (stop _).2, (stop _).1, (stop _).2]
      by_cases brace : d = '{'
      · subst brace
        have within : keyword.length + (indent s).length + 1 ≤ (keyword ++ s).length := by
          rw [List.length_append]
          omega
        exact congrArg some (if_pos within).symm
      · simp [brace]
  · have absent : ∀ u : Text, ¬InWord s u → opening? (s ++ u) = none := by
      intro u apart
      refine if_neg fun starts => long ?_
      exact keyword_prefix_of_append full apart (List.isPrefixOf_iff_prefix.mp starts)
    rw [absent _ (not_inWord_insert apart blank), absent _ apart]
    rfl

/-- No bracket is part of an opening. -/
private theorem inside_of_opening? (found : opening? t = some n) :
    ∀ c ∈ t.take n, Piece.isInside c = true := by
  obtain ⟨opening, after, rfl, is, rfl⟩ := opening?_eq_some_iff.mp found
  rw [List.take_left]
  intro c mem
  have keywords : ∀ c ∈ keyword, Piece.isInside c = true := List.all_eq_true.mp (by decide)
  rcases is.mem mem with letter | blank | rfl
  · exact keywords c letter
  · rw [Piece.isInside, Bool.and_eq_true, bne_iff_ne, bne_iff_ne]
    constructor <;> rintro rfl <;> cases blank
  · decide

/-- Nothing is an opening that starts with a blank. -/
private theorem opening?_of_isBlank (blank : isBlank c = true) : opening? (c :: t) = none := by
  refine if_neg fun starts => ?_
  obtain ⟨rest, shape⟩ := List.isPrefixOf_iff_prefix.mp starts
  obtain rfl : 'u' = c := (List.cons.inj shape).1
  cases blank

/-- Blanks outside openings are left as they are, and no word goes over them. -/
private theorem blankFrom_gap (blank : ∀ c ∈ gap, isBlank c = true) (full : gap ≠ []) (t : Text) :
    blankFrom afterWord 0 (gap ++ t) = gap ++ blankFrom false 0 t := by
  induction gap generalizing afterWord with
  | nil => exact absurd rfl full
  | cons c rest ih =>
    obtain ⟨here, later⟩ := List.forall_mem_cons.mp blank
    have absent : (if afterWord then none else opening? (c :: (rest ++ t))) = none := by
      rw [opening?_of_isBlank here, ite_self]
    rw [List.cons_append, blankFrom_none _ absent, not_isWordCharacter_of_isBlank here]
    cases rest with
    | nil => rfl
    | cons d rest => rw [ih later (List.cons_ne_nil d rest)]; rfl

/-- What is under way of an opening is blanked out, whatever stands in front of it. -/
private theorem blankFrom_run (afterWord : Bool) (gap t : Text) (n : Nat) :
    blankFrom afterWord (gap.length + (n + 1)) (gap ++ t) =
      spaces gap.width ++ blankFrom false (n + 1) t := by
  induction gap generalizing afterWord with
  | nil => cases t <;> simp [blankFrom, spaces]
  | cons c rest ih =>
    have size : (c :: rest).length + (n + 1) = rest.length + (n + 1) + 1 := by
      rw [List.length_cons]
      omega
    rw [size, List.cons_append, blankFrom, ih, ← List.append_assoc, spaces, spaces,
      List.replicate_append_replicate, width_cons, spaces]

/-- An opening that is found where no word goes on has a character, and no bracket is part of it. -/
private theorem exists_of_found (found : (if afterWord then none else opening? (c :: t)) = some n) :
    opening? (c :: t) = some n ∧ ∃ m, n = m + 1 ∧ Piece.isInside c = true ∧
      ∀ d ∈ t.take m, Piece.isInside d = true := by
  cases afterWord with
  | true => cases found
  | false =>
    have found : opening? (c :: t) = some n := found
    obtain ⟨opening, after, -, ⟨blanks, -, rfl⟩, rfl⟩ := opening?_eq_some_iff.mp found
    have own := inside_of_opening? found
    rw [List.length_append, List.length_singleton, List.take_succ_cons, List.forall_mem_cons] at own
    exact ⟨found, _, List.length_append, own⟩

/-- Blanking erases no bracket, unless one is said to be part of the opening under way. -/
private theorem erased_blankFrom (afterWord : Bool) (left : Nat) (t : Text)
    (inside : ∀ c ∈ t.take left, Piece.isInside c = true) :
    Erased t (blankFrom afterWord left t) := by
  induction t generalizing afterWord left with
  | nil => exact .nil
  | cons c rest ih =>
    cases left with
    | succ n =>
      rw [List.take_succ_cons, List.forall_mem_cons] at inside
      exact .blank inside.1 (ih _ n inside.2)
    | zero =>
      cases found : if afterWord then none else opening? (c :: rest) with
      | none =>
        rw [blankFrom_none rest found]
        exact .keep c (ih _ 0 (by simp))
      | some n =>
        obtain ⟨-, m, rfl, here, later⟩ := exists_of_found found
        rw [blankFrom_some rest found]
        exact .blank here (ih _ m later)

/-- How much of an opening under way is left when blanks are put in behind some characters. -/
private def stretch (left before gap : Nat) : Nat := if left ≤ before then left else left + gap

private theorem stretch_zero (before gap : Nat) : stretch 0 before gap = 0 := if_pos (Nat.zero_le _)

private theorem stretch_succ (left before gap : Nat) :
    stretch (left + 1) (before + 1) gap = stretch left before gap + 1 := by
  unfold stretch
  split <;> split <;> omega

/-- What stands in front of a text matters only when the text starts with an opening. -/
private theorem blankFrom_of_separate (separate : afterWord = true → opening? t = none) :
    blankFrom false 0 t = blankFrom afterWord 0 t := by
  cases afterWord with
  | false => rfl
  | true =>
    cases t with
    | nil => rfl
    | cons c rest =>
      have skipped : (if true then none else opening? (c :: rest)) = none := rfl
      have absent : (if false then none else opening? (c :: rest)) = none := separate rfl
      rw [blankFrom_none rest absent, blankFrom_none rest skipped]

/-- Blanking goes on at a loose seam as before when blanks are put in there. -/
private theorem exists_blankFrom_insert (afterWord : Bool) (left : Nat) (apart : ¬InWord s t)
    (blank : ∀ c ∈ gap, isBlank c = true)
    (inside : ∀ c ∈ (s ++ t).take left, Piece.isInside c = true)
    (separate : endsWord afterWord s = true → opening? t = none) :
    ∃ s' t' gap', Erased s s' ∧ Erased t t' ∧ (∀ c ∈ gap', isBlank c = true) ∧
      blankFrom afterWord left (s ++ t) = s' ++ t' ∧
      blankFrom afterWord (stretch left s.length gap.length) (s ++ (gap ++ t)) =
        s' ++ (gap' ++ t') := by
  induction s generalizing afterWord left with
  | nil =>
    have erased := erased_blankFrom afterWord left t inside
    have separate : afterWord = true → opening? t = none := separate
    cases left with
    | zero =>
      refine ⟨[], blankFrom afterWord 0 t, gap, .nil, erased, blank, rfl, ?_⟩
      rw [stretch_zero, List.nil_append, List.nil_append]
      by_cases full : gap = []
      · rw [full, List.nil_append, List.nil_append]
      · rw [blankFrom_gap blank full, blankFrom_of_separate separate]
    | succ n =>
      refine ⟨[], blankFrom afterWord (n + 1) t, spaces gap.width, .nil, erased,
        fun c mem => isBlank_of_mem_spaces mem, rfl, ?_⟩
      have longer : stretch (n + 1) (List.length (α := Char) []) gap.length =
          gap.length + (n + 1) := by
        simp [stretch, Nat.add_comm]
      rw [longer, List.nil_append, blankFrom_run, List.nil_append]
      cases t <;> rfl
  | cons c s ih =>
    have apart' : ¬InWord s t := fun ⟨word, suffix, joined⟩ =>
      apart ⟨word, suffix.trans (List.suffix_cons c s), joined⟩
    rw [endsWord_cons] at separate
    rw [List.cons_append, List.cons_append, List.length_cons]
    cases left with
    | succ n =>
      rw [List.cons_append, List.take_succ_cons, List.forall_mem_cons] at inside
      obtain ⟨s', t', gap', front, back, blank', old, new⟩ := ih _ n apart' inside.2 separate
      refine ⟨spaces c.utf8Size ++ s', t', gap', .blank inside.1 front, back, blank', ?_, ?_⟩
      · rw [blankFrom, old, List.append_assoc]
      · rw [stretch_succ, blankFrom, new, List.append_assoc]
    | zero =>
      have wider := opening?_insert (List.cons_ne_nil c s) apart blank
      rw [List.cons_append, List.cons_append] at wider
      rw [stretch_zero]
      cases found : if afterWord then none else opening? (c :: (s ++ t)) with
      | none =>
        have found' : (if afterWord then none else opening? (c :: (s ++ (gap ++ t)))) = none := by
          cases afterWord with
          | true => rfl
          | false =>
            have absent : opening? (c :: (s ++ t)) = none := found
            rw [wider, absent]
            rfl
        obtain ⟨s', t', gap', front, back, blank', old, new⟩ := ih _ 0 apart' (by simp) separate
        rw [stretch_zero] at new
        refine ⟨c :: s', t', gap', .keep c front, back, blank', ?_, ?_⟩
        · rw [blankFrom_none _ found, old, List.cons_append]
        · rw [blankFrom_none _ found', new, List.cons_append]
      | some n =>
        obtain ⟨starts, m, rfl, here, later⟩ := exists_of_found found
        have found' : (if afterWord then none else opening? (c :: (s ++ (gap ++ t)))) =
            some (stretch m s.length gap.length + 1) := by
          cases afterWord with
          | true => cases found
          | false =>
            rw [starts] at wider
            rw [← stretch_succ]
            exact wider
        obtain ⟨s', t', gap', front, back, blank', old, new⟩ := ih _ m apart' later separate
        refine ⟨spaces c.utf8Size ++ s', t', gap', .blank here front, back, blank', ?_, ?_⟩
        · rw [blankFrom_some _ found, old, List.append_assoc]
        · rw [blankFrom_some _ found', new, List.append_assoc]

/-- Blanking keeps a character that is part of no opening. -/
private theorem exists_blankFrom_keep (afterWord : Bool) (left : Nat) (short : left ≤ s.length)
    (inside : ∀ c ∈ s.take left, Piece.isInside c = true)
    (free : ∀ u n, opening? (u ++ c :: t) = some n → n ≤ u.length) :
    ∃ s' t', Erased s s' ∧ Erased t t' ∧
      blankFrom afterWord left (s ++ c :: t) = s' ++ c :: t' := by
  induction s generalizing afterWord left with
  | nil =>
    obtain rfl := Nat.le_zero.mp short
    have absent : (if afterWord then none else opening? (c :: t)) = none := by
      cases found : if afterWord then none else opening? (c :: t) with
      | none => rfl
      | some n =>
        obtain ⟨starts, m, rfl, -⟩ := exists_of_found found
        exact absurd (free [] _ starts) (Nat.not_succ_le_zero m)
    refine ⟨[], _, .nil, erased_blankFrom (isWordCharacter c) 0 t (by simp), ?_⟩
    rw [List.nil_append, blankFrom_none t absent, List.nil_append]
  | cons d s ih =>
    rw [List.cons_append]
    cases left with
    | succ n =>
      rw [List.take_succ_cons, List.forall_mem_cons] at inside
      obtain ⟨s', t', front, back, whole⟩ := ih _ n (Nat.le_of_succ_le_succ short) inside.2
      refine ⟨spaces d.utf8Size ++ s', t', .blank inside.1 front, back, ?_⟩
      rw [blankFrom, whole, List.append_assoc]
    | zero =>
      cases found : if afterWord then none else opening? (d :: (s ++ c :: t)) with
      | none =>
        obtain ⟨s', t', front, back, whole⟩ := ih (isWordCharacter d) 0 (Nat.zero_le _) (by simp)
        refine ⟨d :: s', t', .keep d front, back, ?_⟩
        rw [blankFrom_none _ found, whole, List.cons_append]
      | some n =>
        obtain ⟨starts, m, rfl, here, later⟩ := exists_of_found found
        have short : m ≤ s.length := Nat.le_of_succ_le_succ (free (d :: s) _ starts)
        rw [List.take_append_of_le_length short] at later
        obtain ⟨s', t', front, back, whole⟩ := ih (isWordCharacter d) m short later
        refine ⟨spaces d.utf8Size ++ s', t', .blank here front, back, ?_⟩
        rw [blankFrom_some _ found, whole, List.append_assoc]

/-- An opening that goes over a character holds it, and then what follows up to its brace. -/
private theorem exists_of_opening?_over {u : Text} (found : opening? (u ++ c :: t) = some n)
    (beyond : u.length < n) : ∃ more, IsOpening (u ++ c :: more) ∧ more <+: t := by
  obtain ⟨opening, after, split, is, rfl⟩ := opening?_eq_some_iff.mp found
  rcases List.append_eq_append_iff.mp split with ⟨later, rfl, same⟩ | ⟨later, rfl, -⟩
  · cases later with
    | nil =>
      rw [List.append_nil] at beyond
      exact absurd beyond (Nat.lt_irrefl _)
    | cons d later =>
      obtain ⟨rfl, rfl⟩ := List.cons.inj same
      exact ⟨later, is, List.prefix_append later after⟩
  · rw [List.length_append] at beyond
    exact absurd beyond (by omega)

/-- No opening goes over a slash. -/
theorem free_of_slash (u : Text) (n : Nat) (found : opening? (u ++ '/' :: t) = some n) :
    n ≤ u.length := by
  by_contra beyond
  obtain ⟨more, is, -⟩ := exists_of_opening?_over found (Nat.lt_of_not_le beyond)
  rcases is.mem (List.mem_append_right u List.mem_cons_self) with letter | blank | brace
  · exact absurd letter (by decide)
  · cases blank
  · exact absurd brace (by decide)

/-- No opening goes over a word character in front of the first letter of an opening. -/
theorem free_of_word (word : isWordCharacter c = true) (u : Text) (n : Nat)
    (found : opening? (u ++ c :: 'u' :: t) = some n) : n ≤ u.length := by
  by_contra beyond
  obtain ⟨more, is, front⟩ := exists_of_opening?_over found (Nat.lt_of_not_le beyond)
  cases more with
  | nil =>
    obtain ⟨blanks, -, shape⟩ := is
    cases List.singleton_inj.mp (List.append_inj' shape rfl).2
    exact absurd word (by decide)
  | cons d more =>
    obtain ⟨rest, same⟩ := front
    obtain rfl : d = 'u' := (List.cons.inj same).1
    -- Only the first character of an opening is a `u`, and this one has another in front.
    obtain ⟨tail, shape, others⟩ := is.exists_tail
    refine others 'u' ?_ rfl
    cases u with
    | nil => simp [← (List.cons.inj shape).2]
    | cons e u => simp [← (List.cons.inj shape).2]

/-- A line with blanks at a loose seam has its union openings blanked out as before. -/
theorem exists_blank_insert (apart : ¬InWord s t) (blank : ∀ c ∈ gap, isBlank c = true)
    (separate : (∃ c ∈ s.getLast?, isWordCharacter c = true) → opening? t = none) :
    ∃ s' t' gap', Erased s s' ∧ Erased t t' ∧ (∀ c ∈ gap', isBlank c = true) ∧
      Wrapper.blank (s ++ t) = s' ++ t' ∧ Wrapper.blank (s ++ (gap ++ t)) = s' ++ (gap' ++ t') := by
  have separate : endsWord false s = true → opening? t = none := fun ends => separate (by
    unfold endsWord at ends
    cases last : s.getLast? with
    | none => rw [last] at ends; cases ends
    | some c => rw [last] at ends; exact ⟨c, rfl, ends⟩)
  have whole := exists_blankFrom_insert false 0 apart blank (by simp) separate
  rwa [stretch_zero] at whole

/-- A character that is part of no opening is kept when the openings are blanked out. -/
theorem exists_blank_keep (free : ∀ u n, opening? (u ++ c :: t) = some n → n ≤ u.length) :
    ∃ s' t', Erased s s' ∧ Erased t t' ∧ Wrapper.blank (s ++ c :: t) = s' ++ c :: t' :=
  exists_blankFrom_keep false 0 (Nat.zero_le _) (by simp) free

end Wrapper

end FieldTables
