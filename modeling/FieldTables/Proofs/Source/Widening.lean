import FieldTables.Proofs.Source.Likeness
import FieldTables.Proofs.Source.Opening
import FieldTables.Proofs.Source.Statement

/-!
# Wider lines

A line is made wider by blanks at a loose seam. With its union openings blanked out it is cut into
the same pieces, one of them wider, and the statements of the pieces are read as before.
-/

namespace FieldTables

open Text

namespace Text

variable {s t gap : Text} {c : Char} {ls : List Lexeme}

/-- Trimming changes no lexeme. -/
theorem lexed_trim_iff : Lexed t.trim ls ↔ Lexed t ls := by
  obtain ⟨blanks, split, blank⟩ := exists_trimEnd t.trimStart
  rw [← lexed_trimStart_iff (t := t), split, lexed_append_blanks_iff blank, trim]

/-- The first character that is not blank is the same when blanks are put in. -/
theorem head?_trimStart_insert (blank : ∀ c ∈ gap, isBlank c = true) :
    (trimStart (s ++ (gap ++ t))).head? = (trimStart (s ++ t)).head? := by
  have skip : (gap ++ t).dropWhile isBlank = t.dropWhile isBlank :=
    List.dropWhile_append_of_pos blank
  rw [trimStart, trimStart, @List.dropWhile_append _ isBlank s, @List.dropWhile_append _ isBlank s,
    skip]
  cases s.dropWhile isBlank with
  | nil => rfl
  | cons c rest => rfl

end Text

namespace Statement

open Wrapper

variable {s t gap : Text} {c : Char} {n offset : Nat}

/-- The pieces of a line without their offsets. -/
def cuts : Text → List Text
  | [] => [[]]
  | '{' :: rest => ['{'] :: cuts rest
  | ';' :: rest => [] :: cuts rest
  | c :: rest => (cuts rest).modifyHead (c :: ·)

theorem cuts_cons (opening : c ≠ '{') (semicolon : c ≠ ';') :
    cuts (c :: t) = (cuts t).modifyHead (c :: ·) := by
  rw [cuts]
  · exact opening
  · exact semicolon

theorem map_snd_pieces (offset : Nat) (t : Text) : (pieces offset t).map Prod.snd = cuts t := by
  fun_induction pieces offset t with
  | case1 => rfl
  | case2 offset rest ih => exact congrArg (['{'] :: ·) ih
  | case3 offset rest ih => exact congrArg ([] :: ·) ih
  | case4 offset c rest opening semicolon failed ih =>
    obtain ⟨first, others, split⟩ := exists_pieces_eq (offset + c.utf8Size) rest
    cases failed.symm.trans split
  | case5 offset c rest opening semicolon place piece others cut ih =>
    rw [cut] at ih
    rw [cuts_cons opening semicolon, ← ih]
    rfl

/-- The first piece of a line is what the line starts with. -/
private theorem exists_cuts_eq (t : Text) :
    ∃ first others, cuts t = first :: others ∧ first <+: t ∧
      (first = [] ∨ first.head? = t.head?) := by
  fun_induction cuts t with
  | case1 => exact ⟨[], [], rfl, List.prefix_refl _, .inl rfl⟩
  | case2 rest => exact ⟨['{'], _, rfl, ⟨rest, rfl⟩, .inr rfl⟩
  | case3 rest => exact ⟨[], _, rfl, List.nil_prefix, .inl rfl⟩
  | case4 c rest opening semicolon ih =>
    obtain ⟨first, others, split, front, -⟩ := ih
    rw [split]
    exact ⟨c :: first, others, rfl, List.prefix_cons_inj c |>.mpr front, .inr rfl⟩

/-- Blanks in front of a line belong to its first piece. -/
private theorem cuts_gap {first : Text} {others : List Text} (blank : ∀ c ∈ gap, isBlank c = true)
    (split : cuts t = first :: others) : cuts (gap ++ t) = (gap ++ first) :: others := by
  induction gap with
  | nil => exact split
  | cons c rest ih =>
    obtain ⟨here, later⟩ := List.forall_mem_cons.mp blank
    have opening : c ≠ '{' := by rintro rfl; cases here
    have semicolon : c ≠ ';' := by rintro rfl; cases here
    rw [List.cons_append, cuts_cons opening semicolon, ih later]
    rfl

/-- How a line is cut around a seam: the piece with the seam, and the pieces before and after it. -/
structure Cut (s t : Text) (before : List Text) (u v : Text) (after : List Text) : Prop where
  behind : u <:+ s
  front : v <+: t
  joined : v = [] ∨ v.head? = t.head?
  /-- Without pieces before it, the piece goes back to the start of the line. -/
  first : before = [] → u = s
  /-- At the start of the line there are no pieces before it. -/
  start : s = [] → before = []
  /-- The piece goes back over any character that cuts nothing. -/
  last : ∀ c ∈ s.getLast?, c ≠ '{' → c ≠ ';' → u ≠ []
  /-- Blanks at the seam belong to the piece. -/
  cuts : ∀ gap, (∀ c ∈ gap, isBlank c = true) →
    Statement.cuts (s ++ (gap ++ t)) = before ++ (u ++ (gap ++ v)) :: after

theorem exists_cut (s t : Text) : ∃ before u v after, Cut s t before u v after := by
  induction s with
  | nil =>
    obtain ⟨first, others, split, front, joined⟩ := exists_cuts_eq t
    refine ⟨[], [], first, others, List.suffix_refl _, front, joined, fun _ => rfl, fun _ => rfl,
      nofun, fun gap blank => ?_⟩
    rw [List.nil_append, List.nil_append, List.nil_append]
    exact cuts_gap blank split
  | cons c s ih =>
    obtain ⟨before, u, v, after, behind, front, joined, first, start, last, cuts⟩ := ih
    have behind := behind.trans (List.suffix_cons c s)
    have last : ∀ d ∈ (c :: s).getLast?, s ≠ [] → d ≠ '{' → d ≠ ';' → u ≠ [] := by
      intro d mem nonempty
      rw [List.getLast?_cons_of_ne_nil nonempty] at mem
      exact last d mem
    by_cases opening : c = '{'
    · subst opening
      refine ⟨['{'] :: before, u, v, after, behind, front, joined, nofun, nofun, ?_, ?_⟩
      · intro d mem other
        refine last d mem ?_ other
        rintro rfl
        exact other (Option.some.inj mem).symm
      · exact fun gap blank => congrArg (['{'] :: ·) (cuts gap blank)
    by_cases semicolon : c = ';'
    · subst semicolon
      refine ⟨[] :: before, u, v, after, behind, front, joined, nofun, nofun, ?_, ?_⟩
      · intro d mem other other'
        refine last d mem ?_ other other'
        rintro rfl
        exact other' (Option.some.inj mem).symm
      · exact fun gap blank => congrArg ([] :: ·) (cuts gap blank)
    · have step : ∀ gap, Statement.cuts (c :: s ++ (gap ++ t)) =
          (Statement.cuts (s ++ (gap ++ t))).modifyHead (c :: ·) :=
        fun gap => cuts_cons opening semicolon
      cases before with
      | nil =>
        refine ⟨[], c :: u, v, after, ?_, front, joined, ?_, fun _ => rfl, ?_, ?_⟩
        · exact first rfl ▸ List.suffix_refl _
        · exact fun _ => by rw [first rfl]
        · exact fun _ _ _ _ => List.cons_ne_nil c u
        · intro gap blank
          rw [step, cuts gap blank]
          rfl
      | cons piece before =>
        refine ⟨(c :: piece) :: before, u, v, after, behind, front, joined, nofun, nofun, ?_, ?_⟩
        · intro d mem
          refine last d mem ?_
          rintro rfl
          cases start rfl
        · intro gap blank
          rw [step, cuts gap blank]
          rfl

/-- Blanking closing braces erases no bracket. -/
theorem erased_withoutClosing (t : Text) : Erased t (withoutClosing t) := by
  induction t with
  | nil => exact .nil
  | cons c rest ih =>
    by_cases closing : c = '}'
    · subst closing
      exact .blank (by decide) ih
    · have step : withoutClosing (c :: rest) = c :: withoutClosing rest := by
        rw [withoutClosing, List.map_cons, if_neg closing]
        rfl
      rw [step]
      exact .keep c ih

theorem withoutClosing_append (s t : Text) :
    withoutClosing (s ++ t) = withoutClosing s ++ withoutClosing t := List.map_append

theorem isBlank_withoutClosing (blank : ∀ c ∈ gap, isBlank c = true) :
    ∀ c ∈ withoutClosing gap, isBlank c = true := by
  intro c mem
  rcases mem_withoutClosing gap c mem with rfl | own
  · decide
  · exact blank c own

/-- The statements of two pieces are read alike when one has blanks more, at a loose seam. -/
theorem alike_ofPiece (loose : Loose s t) (blank : ∀ c ∈ gap, isBlank c = true)
    (offset offset' : Nat) :
    (ofPiece n (offset, s ++ t)).Alike (ofPiece n (offset', s ++ (gap ++ t))) := by
  have loose := loose.erased (erased_withoutClosing s) (erased_withoutClosing t)
  have blank := isBlank_withoutClosing blank
  have old : (ofPiece n (offset, s ++ t)).text = (withoutClosing s ++ withoutClosing t).trim := by
    rw [← withoutClosing_append]
    rfl
  have new : (ofPiece n (offset', s ++ (gap ++ t))).text =
      (withoutClosing s ++ (withoutClosing gap ++ withoutClosing t)).trim := by
    rw [← withoutClosing_append, ← withoutClosing_append]
    rfl
  refine ⟨rfl, ?_, ?_, ?_⟩
  · rw [old, new, Bool.eq_iff_iff, List.isEmpty_iff, List.isEmpty_iff, trim_eq_nil_iff,
      trim_eq_nil_iff]
    simp only [List.forall_mem_append]
    tauto
  · have closed : '{' ∉ withoutClosing gap := fun mem => by cases blank _ mem
    rw [isOpening, isOpening, old, new, Bool.eq_iff_iff, List.contains_iff_mem,
      List.contains_iff_mem, mem_trim_iff (by decide), mem_trim_iff (by decide), List.mem_append,
      List.mem_append, List.mem_append, or_iff_right closed]
  · intro ls lexed
    rw [old, lexed_trim_iff] at lexed
    rw [new, lexed_trim_iff]
    exact lexed.insert loose blank

/-- A line that is wider at a loose seam has its pieces read as before. -/
theorem forall₂_alike_insert (loose : Loose s t) (blank : ∀ c ∈ gap, isBlank c = true)
    (offset : Nat) : List.Forall₂ Alike ((pieces offset (s ++ t)).map (ofPiece n))
      ((pieces offset (s ++ (gap ++ t))).map (ofPiece n)) := by
  obtain ⟨before, u, v, after, cut⟩ := exists_cut s t
  -- Where a piece starts on its line does not matter.
  let same : Text → Text → Prop := fun piece wider =>
    ∀ offset offset', (ofPiece n (offset, piece)).Alike (ofPiece n (offset', wider))
  have refl : ∀ pieces : List Text, List.Forall₂ same pieces pieces := fun pieces =>
    List.forall₂_same.mpr fun piece _ offset offset' => ⟨rfl, rfl, rfl, fun _ => id⟩
  have here : same (u ++ v) (u ++ (gap ++ v)) :=
    alike_ofPiece (loose.mono cut.behind cut.front cut.joined) blank
  have all : List.Forall₂ same (before ++ (u ++ v) :: after)
      (before ++ (u ++ (gap ++ v)) :: after) :=
    List.rel_append (refl before) (.cons here (refl after))
  have old := cut.cuts [] (List.forall_mem_nil _)
  rw [List.nil_append, List.nil_append] at old
  rw [← old, ← cut.cuts gap blank, ← map_snd_pieces offset, ← map_snd_pieces offset,
    List.forall₂_map_left_iff, List.forall₂_map_right_iff] at all
  rw [List.forall₂_map_left_iff, List.forall₂_map_right_iff]
  exact all.imp fun _ _ read => read _ _

/-- In a line with lexemes only, a character that cuts nothing and is no lexeme by itself is inside
a group or in an identifier. -/
private theorem inside_of_pieces (visible : isBlank c = false) (free : c ∉ "\x7b\x7d;*]".toList)
    (readable : ∀ d ∈ (pieces offset (s ++ c :: t)).map (ofPiece n), ∃ ls, Lexed d.text ls) :
    InGroup (s ++ [c]) t ∨ ∃ word : Text, word <:+ s ++ [c] ∧ word.isIdentifier = true := by
  obtain ⟨opening, closing, semicolon, star, bracket⟩ :
      c ≠ '{' ∧ c ≠ '}' ∧ c ≠ ';' ∧ c ≠ '*' ∧ c ≠ ']' := by simpa using free
  obtain ⟨before, u, v, after, cut⟩ := exists_cut (s ++ [c]) t
  have own : u ≠ [] := cut.last c List.getLast?_concat opening semicolon
  -- The piece with the seam ends with the character in front of it.
  obtain ⟨u, rfl, -⟩ := (List.suffix_concat_iff.mp cut.behind).resolve_left own
  have listed : u ++ [c] ++ v ∈ (pieces offset (s ++ c :: t)).map Prod.snd := by
    have whole := cut.cuts [] (List.forall_mem_nil _)
    rw [List.nil_append, List.nil_append, List.append_assoc, List.singleton_append] at whole
    rw [map_snd_pieces, whole]
    simp
  obtain ⟨piece, mem, same⟩ := List.mem_map.mp listed
  obtain ⟨ls, lexed⟩ := readable _ (List.mem_map_of_mem mem)
  have kept : withoutClosing [c] = [c] := by
    rw [withoutClosing, List.map_singleton, if_neg closing]
  have text : (ofPiece n piece).text =
      (withoutClosing u ++ c :: withoutClosing v).trim := by
    rw [ofPiece, same, withoutClosing_append, withoutClosing_append, kept, List.append_assoc]
    rfl
  rw [text, lexed_trim_iff] at lexed
  have front := erased_withoutClosing (u ++ [c])
  rw [withoutClosing_append, kept] at front
  rcases lexed.inside_of_char visible star opening bracket with inside | ⟨word, suffix, identifier⟩
  · exact .inl ((inside.of_erased front (erased_withoutClosing v)).mono cut.behind cut.front)
  · exact .inr ⟨word, (front.suffix_of_isIdentifier suffix identifier).trans cut.behind, identifier⟩

/-- A line is no directive when its openings are blanked out and it starts with no number sign. -/
private theorem ofLine_eq_pieces (plain : ¬Directive t) :
    ofLine n t = (pieces 0 (Wrapper.blank t)).map (ofPiece n) := by
  rcases ofLine_eq n t with ⟨is, -⟩ | ⟨-, eq⟩
  · exact absurd is plain
  · exact eq

/-- In a line with lexemes only, a character that no opening goes over and that is no lexeme by
itself is inside a group or in an identifier. -/
private theorem inside_of_ofLine (visible : isBlank c = false) (free : c ∉ "\x7b\x7d;*]".toList)
    (kept : ∀ u n, opening? (u ++ c :: t) = some n → n ≤ u.length)
    (plain : ¬Directive (s ++ c :: t))
    (readable : ∀ d ∈ ofLine n (s ++ c :: t), ∃ ls, Lexed d.text ls) :
    InGroup (s ++ [c]) t ∨ ∃ word : Text, word <:+ s ++ [c] ∧ word.isIdentifier = true := by
  obtain ⟨s', t', front, back, whole⟩ := exists_blank_keep (s := s) kept
  rw [ofLine_eq_pieces plain, whole] at readable
  have front := front.append (.refl [c])
  rcases inside_of_pieces visible free readable with inside | ⟨word, suffix, identifier⟩
  · exact .inl (inside.of_erased front back)
  · exact .inr ⟨word, front.suffix_of_isIdentifier suffix identifier, identifier⟩

/-- In a line with lexemes only, a slash is inside a group. -/
theorem inGroup_of_slash (plain : ¬Directive (s ++ '/' :: t))
    (readable : ∀ d ∈ ofLine n (s ++ '/' :: t), ∃ ls, Lexed d.text ls) :
    InGroup (s ++ ['/']) t := by
  rcases inside_of_ofLine (by decide) (by decide) free_of_slash plain readable with
    inside | ⟨word, suffix, identifier⟩
  · exact inside
  · rcases List.suffix_concat_iff.mp suffix with rfl | ⟨front, rfl, -⟩
    · cases identifier
    · cases isName_of_isIdentifier identifier '/' (by simp)

/-- No word goes on with a union opening at a loose seam of a line with lexemes only. -/
private theorem opening?_of_loose (loose : Loose s t) (plain : ¬Directive (s ++ t))
    (readable : ∀ d ∈ ofLine n (s ++ t), ∃ ls, Lexed d.text ls)
    (word : ∃ c ∈ s.getLast?, isWordCharacter c = true) : opening? t = none := by
  obtain ⟨c, last, word⟩ := word
  obtain ⟨s, rfl⟩ := List.getLast?_eq_some_iff.mp last
  rw [Option.eq_none_iff_forall_ne_some]
  intro m found
  obtain ⟨opening, after, rfl, is, -⟩ := opening?_eq_some_iff.mp found
  obtain ⟨tail, rfl, -⟩ := is.exists_tail
  have visible : isBlank c = false := by
    rw [← Bool.not_eq_true]
    intro blank
    cases word.symm.trans (not_isWordCharacter_of_isBlank blank)
  have free : c ∉ "\x7b\x7d;*]".toList := fun mem => by
    have apart : "\x7b\x7d;*]".toList.all (fun c => !isWordCharacter c) = true := by decide +kernel
    have other := List.all_eq_true.mp apart c mem
    rw [word] at other
    cases other
  rw [List.append_assoc, List.singleton_append] at plain readable
  rcases inside_of_ofLine visible free (free_of_word word) plain readable with
    inside | ⟨name, suffix, identifier⟩
  · exact loose.group inside
  · exact loose.word ⟨name, suffix, identifier, rfl⟩

/-- Blanks at a loose seam of a line that is no directive leave its statements alike. -/
theorem alike_ofLine_insert (loose : Loose s t) (blank : ∀ c ∈ gap, isBlank c = true)
    (plain : ¬Directive (s ++ t)) (readable : ∀ d ∈ ofLine n (s ++ t), ∃ ls, Lexed d.text ls) :
    List.Forall₂ Alike (ofLine n (s ++ t)) (ofLine n (s ++ (gap ++ t))) := by
  obtain ⟨s', t', gap', front, back, blank', old, new⟩ :=
    exists_blank_insert loose.word blank (opening?_of_loose loose plain readable)
  have plain' : ¬Directive (s ++ (gap ++ t)) := by
    rw [← isDirective_blank_iff, old, isDirective] at plain
    rwa [← isDirective_blank_iff, new, isDirective, head?_trimStart_insert blank']
  rw [ofLine_eq_pieces plain, ofLine_eq_pieces plain', old, new]
  exact forall₂_alike_insert (loose.erased front back) blank' 0

end Statement

end FieldTables
