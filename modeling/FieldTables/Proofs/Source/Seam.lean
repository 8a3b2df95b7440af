import FieldTables.Proofs.Source.Lexing
import Mathlib.Data.List.Infix

/-!
# Seams

A seam is a position between two texts. Blanks at a seam change no lexeme unless the seam is inside
an identifier or inside a group. Blanking characters out moves no seam into either of them, as long
as no bracket is blanked out.
-/

namespace FieldTables

namespace Text

variable {s t u v gap : Text} {c : Char} {ls : List Lexeme}

/-- The seam between two texts is inside an identifier. -/
def InWord (s t : Text) : Prop :=
  ∃ word : Text, word <:+ s ∧ word.isIdentifier = true ∧ t.startsApart = false

/-- The seam between two texts is inside a group. -/
def InGroup (s t : Text) : Prop :=
  ∃ front back, '[' :: front <:+ s ∧ back ++ [']'] <+: t ∧
    ∀ c ∈ front ++ back, Piece.isInside c = true

/-- The seam between two texts is inside no identifier and no group. -/
structure Loose (s t : Text) : Prop where
  word : ¬InWord s t
  group : ¬InGroup s t

instance : Decidable (InWord s t) :=
  decidable_of_iff (∃ word ∈ s.tails, isIdentifier word = true ∧ t.startsApart = false)
    (exists_congr fun _ => and_congr_left' (List.mem_tails ..))

instance : Decidable (InGroup s t) :=
  decidable_of_iff (∃ opened ∈ s.tails, ∃ closed ∈ t.inits, opened.head? = some '[' ∧
      closed.getLast? = some ']' ∧ (opened.tail ++ closed.dropLast).all Piece.isInside = true) <| by
    simp only [List.mem_tails, List.mem_inits, List.all_eq_true]
    constructor
    · rintro ⟨opened, suffix, closed, front, first, last, free⟩
      obtain ⟨before, rfl⟩ := List.head?_eq_some_iff.mp first
      obtain ⟨behind, rfl⟩ := List.getLast?_eq_some_iff.mp last
      rw [List.dropLast_concat] at free
      exact ⟨before, behind, suffix, front, free⟩
    · rintro ⟨before, behind, suffix, front, free⟩
      refine ⟨_, suffix, _, front, rfl, List.getLast?_concat, ?_⟩
      rwa [List.dropLast_concat]

instance : Decidable (Loose s t) :=
  decidable_of_iff (¬InWord s t ∧ ¬InGroup s t)
    ⟨fun ⟨word, group⟩ => ⟨word, group⟩, fun ⟨word, group⟩ => ⟨word, group⟩⟩

/-- A seam that is inside a group stays so with more text on both sides. -/
theorem InGroup.mono (inside : InGroup u v) (suffix : u <:+ s) (front : v <+: t) : InGroup s t := by
  obtain ⟨before, back, behind, ahead, free⟩ := inside
  exact ⟨before, back, behind.trans suffix, ahead.trans front, free⟩

/-- A seam with less text on both sides is loose too. -/
theorem Loose.mono (loose : Loose s t) (suffix : u <:+ s) (front : v <+: t)
    (apart : v = [] ∨ v.head? = t.head?) : Loose u v := by
  refine ⟨?_, fun inside => loose.group (inside.mono suffix front)⟩
  rintro ⟨word, behind, identifier, joined⟩
  refine loose.word ⟨word, behind.trans suffix, identifier, ?_⟩
  rcases apart with rfl | same
  · cases joined
  · rwa [startsApart, ← same]

/-- What an identifier starts with is an identifier, and the rest goes on with it. -/
theorem isIdentifier_append_iff (nonempty : s ≠ []) :
    isIdentifier (s ++ t) = true ↔ s.isIdentifier = true ∧ t.IsName := by
  cases s with
  | nil => exact absurd rfl nonempty
  | cons c rest =>
    simp only [List.cons_append, isIdentifier, Bool.and_eq_true, List.all_append, List.all_eq_true,
      and_assoc]
    rfl

/-- A seam with text on both sides within a lexeme is inside an identifier or a group. -/
private theorem inside_of_lexeme {l : Lexeme} {rest : Text} (ends : l.Ends rest)
    (split : l.text = s ++ t) (before : s ≠ []) (behind : t ≠ []) :
    (s.isIdentifier = true ∧ InWord s (t ++ rest)) ∨ InGroup s (t ++ rest) := by
  obtain ⟨d, s, rfl⟩ := List.exists_cons_of_ne_nil before
  cases l with
  | word name =>
    have split : name = d :: s ++ t := split
    obtain ⟨c, t, rfl⟩ := List.exists_cons_of_ne_nil behind
    obtain ⟨identifier, -⟩ := ends
    rw [split, isIdentifier_append_iff before] at identifier
    have name : isNameCharacter c = true := identifier.2 c List.mem_cons_self
    refine .inl ⟨identifier.1, d :: s, List.suffix_refl _, identifier.1, ?_⟩
    simpa [startsApart] using name
  | star =>
    have empty : [] = s ++ t := (List.cons.inj split).2
    exact absurd (List.append_eq_nil_iff.mp empty.symm).2 behind
  | brace =>
    have empty : [] = s ++ t := (List.cons.inj split).2
    exact absurd (List.append_eq_nil_iff.mp empty.symm).2 behind
  | group inside =>
    obtain ⟨rfl, shape⟩ : '[' = d ∧ inside ++ [']'] = s ++ t := List.cons.inj split
    rcases List.eq_nil_or_concat t with rfl | ⟨back, last, rfl⟩
    · exact absurd rfl behind
    rw [List.concat_eq_append, ← List.append_assoc] at shape
    obtain ⟨rfl, close⟩ := List.append_inj' shape rfl
    cases List.singleton_inj.mp close
    rw [List.concat_eq_append]
    exact .inr ⟨s, back, List.suffix_refl _, List.prefix_append _ _, ends⟩

/-- Blanks in front of what follows a lexeme leave the lexeme as it is. -/
private theorem ends_insert {l : Lexeme} (ends : l.Ends t) (blank : ∀ c ∈ gap, isBlank c = true) :
    l.Ends (gap ++ t) := by
  cases l with
  | word name =>
    refine ⟨ends.1, ?_⟩
    cases gap with
    | nil => exact ends.2
    | cons c gap =>
      have other := isNameCharacter_of_isBlank (blank c List.mem_cons_self)
      simp [startsApart, other]
  | star => trivial
  | brace => trivial
  | group inside => exact ends

/-- What follows a lexeme may change behind its first character. -/
private theorem ends_congr {l : Lexeme} (ends : l.Ends (c :: s)) : l.Ends (c :: t) := by
  cases l with
  | word name => exact ends
  | star => trivial
  | brace => trivial
  | group inside => exact ends

/-- Blanks at a loose seam change no lexeme. -/
theorem Lexed.insert (lexed : Lexed (s ++ t) ls) (loose : Loose s t)
    (blank : ∀ c ∈ gap, isBlank c = true) : Lexed (s ++ (gap ++ t)) ls := by
  generalize whole : s ++ t = text at lexed
  induction lexed generalizing s with
  | nil =>
    obtain ⟨rfl, rfl⟩ := List.append_eq_nil_iff.mp whole
    rw [List.nil_append]
    exact Lexed.nil.blanks blank
  | @blank c rest ls here below ih =>
    cases s with
    | nil =>
      cases whole
      rw [List.nil_append]
      exact Lexed.blanks blank (.blank here below)
    | cons d s =>
      obtain ⟨rfl, same⟩ := List.cons.inj whole
      have within := loose.mono (List.suffix_cons d s) (List.prefix_refl t) (.inr rfl)
      exact .blank here (ih within same)
  | @lexeme l rest ls ends below ih =>
    rcases List.append_eq_append_iff.mp whole with ⟨later, split, rfl⟩ | ⟨later, rfl, rfl⟩
    · -- The seam is in front of the lexeme, right behind it, or within it.
      by_cases front : s = []
      · subst front
        rw [List.nil_append, ← List.nil_append later, ← split]
        exact Lexed.blanks blank (.lexeme ends below)
      by_cases back : later = []
      · subst back
        rw [List.append_nil] at split
        rw [← split]
        exact .lexeme (ends_insert ends blank) (Lexed.blanks blank below)
      · rcases inside_of_lexeme ends split front back with ⟨-, inside⟩ | inside
        · exact absurd inside loose.word
        · exact absurd inside loose.group
    · -- The seam is further behind the lexeme.
      rw [List.append_assoc]
      refine .lexeme ?_ (ih ?_ rfl)
      · cases later with
        | nil =>
          rw [List.nil_append] at ends ⊢
          exact ends_insert ends blank
        | cons d later => exact ends_congr ends
      · exact loose.mono (List.suffix_append _ _) (List.prefix_refl t) (.inr rfl)

/-- A character that is no lexeme by itself, and starts and ends no group, is inside a group or in
an identifier. -/
theorem Lexed.inside_of_char (lexed : Lexed (s ++ c :: t) ls) (visible : isBlank c = false)
    (star : c ≠ '*') (brace : c ≠ '{') (close : c ≠ ']') :
    InGroup (s ++ [c]) t ∨ ∃ word : Text, word <:+ s ++ [c] ∧ word.isIdentifier = true := by
  have longer : ∀ {u v : Text}, u <:+ v →
      (InGroup u t ∨ ∃ word : Text, word <:+ u ∧ word.isIdentifier = true) →
        InGroup v t ∨ ∃ word : Text, word <:+ v ∧ word.isIdentifier = true := by
    rintro u v suffix (inside | ⟨word, behind, identifier⟩)
    · exact .inl (inside.mono suffix (List.prefix_refl t))
    · exact .inr ⟨word, behind.trans suffix, identifier⟩
  generalize whole : s ++ c :: t = text at lexed
  induction lexed generalizing s with
  | nil => cases (List.append_eq_nil_iff.mp whole).2
  | @blank d rest ls here below ih =>
    cases s with
    | nil =>
      cases whole
      cases visible.symm.trans here
    | cons e s => exact longer (List.suffix_cons e _) (ih (List.cons.inj whole).2)
  | @lexeme l rest ls ends below ih =>
    rcases List.append_eq_append_iff.mp whole with ⟨later, split, same⟩ | ⟨later, rfl, rfl⟩
    · cases later with
      | nil => exact longer (List.suffix_append s [c]) (ih (s := []) same)
      | cons d later =>
        obtain ⟨rfl, rfl⟩ := List.cons.inj same
        rw [List.append_cons] at split
        by_cases last : later = []
        · subst last
          rw [List.append_nil] at split
          have final : l.text.getLast? = some c := by rw [split, List.getLast?_concat]
          cases l with
          | word name => exact .inr ⟨name, split ▸ List.suffix_refl _, ends.1⟩
          | star => exact absurd (Option.some.inj final).symm star
          | brace => exact absurd (Option.some.inj final).symm brace
          | group inside =>
            rw [Lexeme.text, List.getLast?_concat] at final
            exact absurd (Option.some.inj final).symm close
        · rcases inside_of_lexeme ends split (by simp) last with ⟨identifier, -⟩ | inside
          · exact .inr ⟨_, List.suffix_refl _, identifier⟩
          · exact .inl inside
    · rw [List.append_assoc] at *
      exact longer (List.suffix_append l.text _) (ih rfl)

/-- The end of a text is a loose seam. -/
theorem loose_nil (s : Text) : Loose s [] := by
  refine ⟨?_, ?_⟩
  · rintro ⟨word, -, -, joined⟩
    cases joined
  · rintro ⟨front, back, -, before, -⟩
    exact absurd (List.prefix_nil.mp before) (by simp)

/-- A lexeme ends with a character that is not blank. -/
private theorem visible_of_getLast {l : Lexeme} (ends : l.Ends t)
    (last : l.text.getLast? = some c) : isBlank c = false := by
  cases l with
  | word name =>
    exact not_isBlank_of_isNameCharacter
      (isName_of_isIdentifier ends.1 c (List.mem_of_getLast? last))
  | star =>
    cases last
    decide
  | brace =>
    cases last
    decide
  | group inside =>
    rw [Lexeme.text, List.getLast?_concat] at last
    cases last
    decide

/-- Blanks behind a text are no part of any lexeme. -/
theorem lexed_append_blanks_iff (blank : ∀ c ∈ gap, isBlank c = true) :
    Lexed (s ++ gap) ls ↔ Lexed s ls := by
  constructor
  · intro lexed
    generalize whole : s ++ gap = text at lexed
    induction lexed generalizing s with
    | nil =>
      obtain ⟨rfl, -⟩ := List.append_eq_nil_iff.mp whole
      exact .nil
    | @blank c rest ls here below ih =>
      cases s with
      | nil =>
        have alone := Lexed.nil.blanks blank
        rw [List.append_nil, ← List.nil_append gap, whole] at alone
        rw [(Lexed.blank here below).unique alone]
        exact .nil
      | cons d s =>
        obtain ⟨rfl, same⟩ := List.cons.inj whole
        exact .blank here (ih same)
    | @lexeme l rest ls ends below ih =>
      rcases List.append_eq_append_iff.mp whole with ⟨later, split, rfl⟩ | ⟨later, rfl, rfl⟩
      · -- The text ends where the lexeme does, or else the lexeme would end with a blank.
        rcases List.eq_nil_or_concat later with rfl | ⟨front, c, rfl⟩
        · rw [List.append_nil] at split
          have ends := Lexed.lexeme ends.alone .nil
          have alone := Lexed.nil.blanks blank
          rw [List.append_nil, List.nil_append] at alone
          rwa [List.append_nil, split, ← below.unique alone] at ends
        · have last : l.text.getLast? = some c := by
            rw [split, List.concat_eq_append, ← List.append_assoc, List.getLast?_concat]
          have here := blank c (by simp)
          cases here.symm.trans (visible_of_getLast ends last)
      · refine .lexeme ?_ (ih rfl)
        cases later with
        | nil => exact ends.alone
        | cons d later => exact ends_congr ends
  · intro lexed
    rw [← List.append_nil s] at lexed
    have whole := lexed.insert (loose_nil s) blank
    rwa [List.append_nil] at whole

/-- A text in which some characters, none of them a bracket, are blanked out byte for byte. -/
inductive Erased : Text → Text → Prop
  | nil : Erased [] []
  | keep (c : Char) {s t : Text} (below : Erased s t) : Erased (c :: s) (c :: t)
  | blank {c : Char} {s t : Text} (inside : Piece.isInside c = true) (below : Erased s t) :
      Erased (c :: s) (spaces c.utf8Size ++ t)

theorem Erased.refl (t : Text) : Erased t t := by
  induction t with
  | nil => exact .nil
  | cons c rest ih => exact .keep c ih

theorem Erased.append {s' t' : Text} (front : Erased s s') (back : Erased t t') :
    Erased (s ++ t) (s' ++ t') := by
  induction front with
  | nil => exact back
  | keep c _ ih => exact .keep c ih
  | blank inside _ ih =>
    rw [List.append_assoc]
    exact .blank inside ih

/-- What is left of a character that is blanked out is blank, and it is something. -/
private theorem exists_spaces_cons (c : Char) : ∃ n, spaces c.utf8Size = ' ' :: spaces n := by
  obtain ⟨n, size⟩ := Nat.exists_eq_add_one.mpr c.utf8Size_pos
  exact ⟨n, by rw [size, spaces, List.replicate_succ]; rfl⟩

theorem isBlank_of_mem_spaces {n : Nat} (mem : c ∈ spaces n) : isBlank c = true := by
  rw [List.eq_of_mem_replicate mem]
  decide

/-- Around a character that is still there, each side was blanked out by itself. -/
theorem Erased.split (erased : Erased s (u ++ c :: v)) (visible : isBlank c = false) :
    ∃ before after, s = before ++ c :: after ∧ Erased before u ∧ Erased after v := by
  generalize whole : u ++ c :: v = text at erased
  induction erased generalizing u with
  | nil => cases (List.append_eq_nil_iff.mp whole).2
  | keep d below ih =>
    cases u with
    | nil =>
      cases whole
      exact ⟨[], _, rfl, .nil, below⟩
    | cons e u =>
      obtain ⟨rfl, same⟩ := List.cons.inj whole
      obtain ⟨before, after, rfl, front, back⟩ := ih same
      exact ⟨e :: before, after, rfl, .keep e front, back⟩
  | @blank d s t inside below ih =>
    have deeper : ∀ {w : Text}, w ++ c :: v = t → u = spaces d.utf8Size ++ w →
        ∃ before after, d :: s = before ++ c :: after ∧ Erased before u ∧ Erased after v := by
      rintro w same rfl
      obtain ⟨before, after, rfl, front, back⟩ := ih same
      exact ⟨d :: before, after, rfl, .blank inside front, back⟩
    rcases List.append_eq_append_iff.mp whole with ⟨later, gone, same⟩ | ⟨later, rfl, same⟩
    · cases later with
      | nil => exact deeper (w := []) same (by rw [List.append_nil, gone, List.append_nil])
      | cons e later =>
        obtain ⟨rfl, -⟩ := List.cons.inj same
        have mem : c ∈ spaces d.utf8Size := gone ▸ List.mem_append_right u List.mem_cons_self
        cases visible.symm.trans (isBlank_of_mem_spaces mem)
    · exact deeper same.symm rfl

/-- Where nothing is blank, nothing was blanked out. -/
private theorem Erased.eq_of_visible (erased : Erased s t) (visible : ∀ c ∈ t, isBlank c = false) :
    s = t := by
  induction erased with
  | nil => rfl
  | keep c _ ih => exact congrArg (c :: ·) (ih (List.forall_mem_cons.mp visible).2)
  | @blank c s t _ _ _ =>
    obtain ⟨n, shape⟩ := exists_spaces_cons c
    cases (visible ' ' (by simp [shape])).symm.trans (by decide : isBlank ' ' = true)

/-- Brackets are never blanked out. -/
private theorem Erased.forall_inside (erased : Erased s t)
    (free : ∀ c ∈ t, Piece.isInside c = true) : ∀ c ∈ s, Piece.isInside c = true := by
  induction erased with
  | nil => exact free
  | keep c _ ih =>
    obtain ⟨here, later⟩ := List.forall_mem_cons.mp free
    exact List.forall_mem_cons.mpr ⟨here, ih later⟩
  | blank inside _ ih =>
    exact List.forall_mem_cons.mpr ⟨inside, ih (List.forall_mem_append.mp free).2⟩

/-- An identifier at the end of what is left was there before. -/
theorem Erased.suffix_of_isIdentifier {word : Text} (erased : Erased s t) (suffix : word <:+ t)
    (identifier : word.isIdentifier = true) : word <:+ s := by
  obtain ⟨front, rfl⟩ := suffix
  have name := isName_of_isIdentifier identifier
  cases word with
  | nil => cases identifier
  | cons c rest =>
    obtain ⟨here, later⟩ := List.forall_mem_cons.mp name
    obtain ⟨before, after, rfl, -, back⟩ := erased.split (not_isBlank_of_isNameCharacter here)
    have same := back.eq_of_visible fun d mem => not_isBlank_of_isNameCharacter (later d mem)
    exact ⟨before, by rw [same]⟩

/-- A seam that is inside a group after blanking was inside the group before. -/
theorem InGroup.of_erased {s' t' : Text} (inside : InGroup s' t') (front : Erased s s')
    (back : Erased t t') : InGroup s t := by
  obtain ⟨before, behind, ⟨first, rfl⟩, ⟨last, rfl⟩, free⟩ := inside
  rw [List.append_assoc, List.singleton_append] at back
  obtain ⟨head, opened, rfl, -, within⟩ := front.split (c := '[') (by decide)
  obtain ⟨closed, tail, rfl, within', -⟩ := back.split (c := ']') (by decide)
  rw [List.forall_mem_append] at free
  refine ⟨opened, closed, List.suffix_append _ _, ⟨tail, by simp⟩, ?_⟩
  exact List.forall_mem_append.mpr ⟨within.forall_inside free.1, within'.forall_inside free.2⟩

/-- Blanking keeps a seam loose. -/
theorem Loose.erased {s' t' : Text} (loose : Loose s t) (front : Erased s s') (back : Erased t t') :
    Loose s' t' := by
  refine ⟨?_, fun inside => loose.group (inside.of_erased front back)⟩
  rintro ⟨word, suffix, identifier, joined⟩
  refine loose.word ⟨word, front.suffix_of_isIdentifier suffix identifier, identifier, ?_⟩
  cases t' with
  | nil => cases joined
  | cons d rest =>
    have name : isNameCharacter d = true := by simpa [startsApart] using joined
    obtain ⟨before, after, rfl, start, -⟩ :=
      back.split (u := []) (not_isBlank_of_isNameCharacter name)
    have same := start.eq_of_visible (List.forall_mem_nil _)
    rw [same, List.nil_append, startsApart, List.head?_cons]
    simpa using name

end Text

end FieldTables
