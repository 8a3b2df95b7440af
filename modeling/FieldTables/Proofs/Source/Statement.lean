import FieldTables.Proofs.Source.Comment
import FieldTables.Proofs.Source.Wrapper
import FieldTables.Proofs.Text.Trimming
import FieldTables.Source.Statement

/-!
# Statements of a line

Cutting a line into pieces drops its semicolons and nothing else, trimming drops blanks, and every
piece knows where it starts. So each character of a line that is no blank, semicolon or closing
brace stands in one statement, at the column that the statement gives.
-/

namespace FieldTables

namespace Text

variable {t : Text} {p : Nat} {c : Char}

/-- Trimming the front shifts what is shown by the blanks that are dropped. -/
theorem ink_trimStart_iff : t.Ink p c ↔ ∃ q, p = t.indent.width + q ∧ t.trimStart.Ink q c := by
  conv_lhs => rw [← indent_append_trimStart t]
  rw [ink_append, or_iff_right]
  rintro ⟨⟨before, after, split, -⟩, visible⟩
  have mem : c ∈ t.indent := split ▸ List.mem_append_right before List.mem_cons_self
  rw [indent] at mem
  have blank := List.all_eq_true.mp List.all_takeWhile c mem
  rw [visible] at blank
  cases blank

theorem ink_trimEnd_iff : t.trimEnd.Ink p c ↔ t.Ink p c := by
  obtain ⟨blanks, split, blank⟩ := exists_trimEnd t
  conv_rhs => rw [split]
  rw [ink_append, or_iff_left]
  rintro ⟨q, -, ⟨before, after, rfl, -⟩, visible⟩
  rw [blank c (List.mem_append_right before List.mem_cons_self)] at visible
  cases visible

/-- Trimming shifts what is shown by the blanks in front. -/
theorem ink_trim_iff : t.Ink p c ↔ ∃ q, p = t.indent.width + q ∧ t.trim.Ink q c := by
  rw [ink_trimStart_iff]
  simp only [trim, ink_trimEnd_iff]

/-- What stands behind the blanks in front is the first character that is shown. -/
theorem head?_trimStart_eq_some_iff (visible : isBlank c = false) :
    t.trimStart.head? = some c ↔ ∃ p, t.Ink p c ∧ ∀ q d, t.Ink q d → p ≤ q := by
  induction t with
  | nil => exact iff_of_false nofun fun ⟨_, ink, _⟩ => not_has_nil ink.1
  | cons d rest ih =>
    cases blank : isBlank d with
    | true =>
      have later : ∀ {p c}, Ink (d :: rest) p c ↔ ∃ q, p = d.utf8Size + q ∧ Ink rest q c := by
        simp [ink_cons, blank]
      rw [trimStart, List.dropWhile_cons_of_pos blank, ← trimStart, ih]
      simp only [later]
      constructor
      · rintro ⟨p, ink, least⟩
        refine ⟨_, ⟨p, rfl, ink⟩, ?_⟩
        rintro _ e ⟨q, rfl, ink'⟩
        exact Nat.add_le_add_left (least q e ink') _
      · rintro ⟨_, ⟨p, rfl, ink⟩, least⟩
        exact ⟨p, ink, fun q e ink' => Nat.le_of_add_le_add_left (least _ e ⟨q, rfl, ink'⟩)⟩
    | false =>
      have first : Ink (d :: rest) 0 d := ink_cons.mpr (.inl ⟨rfl, rfl, blank⟩)
      rw [trimStart, List.dropWhile_cons_of_neg (by simp [blank]), List.head?_cons,
        Option.some.injEq]
      constructor
      · rintro rfl
        exact ⟨0, first, fun _ _ _ => Nat.zero_le _⟩
      · rintro ⟨p, ink, least⟩
        obtain rfl := Nat.le_zero.mp (least 0 d first)
        exact (first.1.unique ink.1 (by have := c.utf8Size_pos; omega)
          (by have := d.utf8Size_pos; omega)).2

end Text

namespace Statement

open Text Comment Wrapper

variable {t : Text} {p offset : Nat} {c : Char}

/-- Blanking closing braces shows everything else where it is. -/
theorem ink_withoutClosing_iff : (withoutClosing t).Ink p c ↔ t.Ink p c ∧ c ≠ '}' := by
  induction t generalizing p with
  | nil => exact iff_of_false (fun ink => not_has_nil ink.1) fun ink => not_has_nil ink.1.1
  | cons d rest ih =>
    have step : withoutClosing (d :: rest) = (if d = '}' then ' ' else d) :: withoutClosing rest :=
      rfl
    by_cases closing : d = '}'
    · have blank : isBlank ' ' = true := by decide
      have size : Char.utf8Size ' ' = Char.utf8Size '}' := by decide
      rw [step, if_pos closing, closing, ink_cons, ink_cons, size]
      simp only [ih, blank]
      grind
    · rw [step, if_neg closing, ink_cons, ink_cons]
      simp only [ih]
      grind

theorem mem_withoutClosing (t : Text) : ∀ c ∈ withoutClosing t, c = ' ' ∨ c ∈ t := by
  simp only [withoutClosing, List.mem_map]
  rintro c ⟨d, mem, rfl⟩
  split
  · exact .inl rfl
  · exact .inr mem

theorem width_withoutClosing (t : Text) : (withoutClosing t).width = t.width := by
  induction t with
  | nil => rfl
  | cons c rest ih =>
    have same : (if c = '}' then ' ' else c).utf8Size = c.utf8Size := by
      split
      next closing => rw [closing]; decide
      next => rfl
    rw [withoutClosing, List.map_cons, ← withoutClosing, width_cons, width_cons, ih, same]

/-- The first piece of a line starts where the line does. -/
theorem exists_pieces_eq (offset : Nat) (t : Text) :
    ∃ first others, pieces offset t = (offset, first) :: others := by
  fun_cases pieces offset t <;> exact ⟨_, _, rfl⟩

/-- Pieces hold characters of the line only. -/
theorem subset_of_mem_pieces (offset : Nat) (t : Text) :
    ∀ piece ∈ pieces offset t, piece.2 ⊆ t := by
  fun_induction pieces offset t <;> simp_all <;> grind

/-- An ordinary character goes in front of the first piece of what follows it. -/
theorem exists_pieces_cons (offset : Nat) (rest : Text) (opening : c ≠ '{') (semicolon : c ≠ ';') :
    ∃ first others, pieces (offset + c.utf8Size) rest = (offset + c.utf8Size, first) :: others ∧
      pieces offset (c :: rest) = (offset, c :: first) :: others := by
  obtain ⟨first, others, split⟩ := exists_pieces_eq (offset + c.utf8Size) rest
  refine ⟨first, others, split, ?_⟩
  rw [pieces, split]
  · exact opening
  · exact semicolon

/-- A character that is not blank starts at a byte of a line, in a piece of the line. -/
def PieceShows (piece : Nat × Text) (p : Nat) (c : Char) : Prop :=
  ∃ q, p = piece.1 + q ∧ piece.2.Ink q c

theorem not_pieceShows_nil : ¬PieceShows (offset, []) p c := fun ⟨_, _, ink⟩ => not_has_nil ink.1

theorem pieceShows_cons {d : Char} : PieceShows (offset, d :: t) p c ↔
    (p = offset ∧ c = d ∧ isBlank d = false) ∨ PieceShows (offset + d.utf8Size, t) p c := by
  simp only [PieceShows, ink_cons]
  grind

/-- The pieces of a line show what the line does, without its semicolons. -/
theorem pieceShows_pieces_iff : (∃ piece ∈ pieces offset t, PieceShows piece p c) ↔
    PieceShows (offset, t) p c ∧ c ≠ ';' := by
  induction t generalizing offset with
  | nil => simp [pieces, not_pieceShows_nil]
  | cons d rest ih =>
    by_cases opening : d = '{'
    · subst opening
      rw [pieces, List.exists_mem_cons_iff, pieceShows_cons, pieceShows_cons, ih, or_and_right,
        or_iff_left not_pieceShows_nil]
      have other : c = '{' → c ≠ ';' := by rintro rfl; decide
      exact or_congr ⟨fun here => ⟨here, other here.2.1⟩, And.left⟩ Iff.rfl
    · by_cases semicolon : d = ';'
      · subst semicolon
        rw [pieces, List.exists_mem_cons_iff, pieceShows_cons, ih, or_and_right,
          or_iff_right not_pieceShows_nil, or_iff_right fun ⟨here, other⟩ => other here.2.1]
        exact Iff.rfl
      · obtain ⟨first, others, split, step⟩ :=
          exists_pieces_cons offset rest opening semicolon
        have below := @ih (offset + d.utf8Size)
        rw [split, List.exists_mem_cons_iff] at below
        have other : c = d → c ≠ ';' := fun same => same ▸ semicolon
        rw [step, List.exists_mem_cons_iff, pieceShows_cons, pieceShows_cons, or_assoc, below,
          or_and_right]
        exact or_congr ⟨fun here => ⟨here, other here.2.1⟩, And.left⟩ Iff.rfl

/-- A piece starts where another one ends, or later, and later than what is shown of that one. -/
structure Follows (a b : Nat × Text) : Prop where
  ends : a.1 + a.2.width ≤ b.1
  starts : a.1 + (indent (withoutClosing a.2)).width < b.1

/-- The blanks in front of a text with one more character take up that character more at most. -/
private theorem width_indent_cons_le (t : Text) :
    (indent (withoutClosing (c :: t))).width ≤
      c.utf8Size + (indent (withoutClosing t)).width := by
  have step : withoutClosing (c :: t) = withoutClosing [c] ++ withoutClosing t := rfl
  have size := width_withoutClosing [c]
  have one : withoutClosing [c] = [if c = '}' then ' ' else c] := rfl
  rw [step, one, indent, List.singleton_append]
  rw [one] at size
  cases blank : isBlank (if c = '}' then ' ' else c) with
  | true =>
    rw [List.takeWhile_cons_of_pos blank, ← indent, width_cons]
    simp only [width_cons] at size
    omega
  | false =>
    rw [List.takeWhile_cons_of_neg (by rw [blank]; simp)]
    exact Nat.zero_le _

/-- The pieces of a line follow one another. -/
theorem pieces_follow (offset : Nat) (t : Text) :
    (∀ piece ∈ pieces offset t, offset ≤ piece.1) ∧ (pieces offset t).Pairwise Follows := by
  induction t generalizing offset with
  | nil => simp [pieces]
  | cons d rest ih =>
    have positive := d.utf8Size_pos
    by_cases opening : d = '{'
    · subst opening
      obtain ⟨later, ordered⟩ := ih (offset + 1)
      rw [pieces, List.forall_mem_cons, List.pairwise_cons]
      refine ⟨⟨Nat.le_refl _, fun piece mem => Nat.le_of_succ_le (later piece mem)⟩, ?_,
        ordered⟩
      exact fun piece mem => ⟨later piece mem, later piece mem⟩
    · by_cases semicolon : d = ';'
      · subst semicolon
        obtain ⟨later, ordered⟩ := ih (offset + 1)
        rw [pieces, List.forall_mem_cons, List.pairwise_cons]
        refine ⟨⟨Nat.le_refl _, fun piece mem => Nat.le_of_succ_le (later piece mem)⟩, ?_,
          ordered⟩
        exact fun piece mem => ⟨Nat.le_of_succ_le (later piece mem), later piece mem⟩
      · obtain ⟨first, others, split, step⟩ :=
          exists_pieces_cons offset rest opening semicolon
        obtain ⟨later, ordered⟩ := ih (offset + d.utf8Size)
        rw [split, List.forall_mem_cons] at later
        rw [split, List.pairwise_cons] at ordered
        -- The blanks in front of a piece may be more with the character, but by no more than it.
        have shift := width_indent_cons_le (c := d) first
        rw [step, List.forall_mem_cons, List.pairwise_cons]
        refine ⟨⟨Nat.le_refl _, fun piece mem => ?_⟩, fun piece mem => ?_, ordered.2⟩
        · have := later.2 piece mem
          omega
        · obtain ⟨ends, starts⟩ := ordered.1 piece mem
          refine ⟨?_, ?_⟩ <;> dsimp only [width_cons] at * <;> omega

/-- An opening brace ends its piece. -/
theorem brace_of_mem_pieces {piece : Nat × Text} (mem : piece ∈ pieces offset t)
    {before after : Text} (split : piece.2 = before ++ '{' :: after) : after = [] := by
  induction t generalizing offset piece before with
  | nil =>
    obtain rfl := List.mem_singleton.mp mem
    simp at split
  | cons d rest ih =>
    by_cases opening : d = '{'
    · subst opening
      rw [pieces] at mem
      rcases List.mem_cons.mp mem with rfl | mem
      · cases before with
        | nil => exact (List.cons.inj split).2.symm
        | cons e before => simp at split
      · exact ih mem split
    · by_cases semicolon : d = ';'
      · subst semicolon
        rw [pieces] at mem
        rcases List.mem_cons.mp mem with rfl | mem
        · simp at split
        · exact ih mem split
      · obtain ⟨first, others, below, step⟩ :=
          exists_pieces_cons offset rest opening semicolon
        rw [step] at mem
        rcases List.mem_cons.mp mem with rfl | mem
        · cases before with
          | nil => exact absurd (List.cons.inj split).1 opening
          | cons e before =>
            exact ih (below ▸ List.mem_cons_self) (List.cons.inj split).2
        · exact ih (below ▸ List.mem_cons_of_mem _ mem) split

/-- A character that is not blank starts at a byte of a line, in the text of a statement. -/
def Shows (s : Statement) (p : Nat) (c : Char) : Prop := ∃ q, p + 1 = s.column + q ∧ s.text.Ink q c

/-- The statement of a piece shows what the piece does, without its closing braces. -/
theorem shows_ofPiece_iff {n : Nat} {piece : Nat × Text} :
    (ofPiece n piece).Shows p c ↔ PieceShows piece p c ∧ c ≠ '}' := by
  have ink : ∀ q, (∃ r, q = (indent (withoutClosing piece.2)).width + r ∧
      (ofPiece n piece).text.Ink r c) ↔ piece.2.Ink q c ∧ c ≠ '}' := fun q => by
    rw [← ink_withoutClosing_iff, ink_trim_iff, ofPiece]
  simp only [PieceShows, exists_and_right.symm, and_assoc, ← ink]
  unfold Shows
  rw [ofPiece]
  grind

/-- A statement comes before another one: on a line before, or it starts before the other one does
and ends before that. -/
def Before (a b : Statement) : Prop :=
  a.line < b.line ∨
    (a.line = b.line ∧ a.column < b.column ∧ a.column + a.text.width ≤ b.column)

/-- Pieces that follow one another give statements that do. -/
theorem before_ofPiece (n : Nat) {a b : Nat × Text} (follows : Follows a b) :
    (ofPiece n a).Before (ofPiece n b) := by
  have fits := width_trim_le (withoutClosing a.2)
  obtain ⟨ends, starts⟩ := follows
  rw [width_withoutClosing] at fits
  refine .inr ⟨rfl, ?_, ?_⟩ <;> dsimp only [ofPiece] <;> omega

/-- An opening brace ends the text of its statement. -/
theorem brace_of_ofPiece {n : Nat} {piece : Nat × Text} (mem : piece ∈ pieces offset t)
    {before after : Text} (split : (ofPiece n piece).text = before ++ '{' :: after) :
    after = [] := by
  obtain ⟨blanks, whole, -⟩ := exists_trimEnd (withoutClosing piece.2).trimStart
  have shape : withoutClosing piece.2 =
      indent (withoutClosing piece.2) ++ before ++ '{' :: (after ++ blanks) := by
    conv_lhs => rw [← indent_append_trimStart (withoutClosing piece.2), whole]
    rw [← trim, show (withoutClosing piece.2).trim = _ from split]
    simp
  -- Closing braces were blanked one character at a time, so the piece is cut where its text is.
  obtain ⟨front, back, halves, -, behind⟩ := List.map_eq_append_iff.mp shape
  obtain ⟨d, rest, rfl, opening, tail⟩ := List.map_eq_cons_iff.mp behind
  have brace : d = '{' := by
    split at opening
    next => exact absurd opening (by decide)
    next => exact opening
  subst brace
  obtain rfl := brace_of_mem_pieces mem halves
  exact (List.append_eq_nil_iff.mp tail.symm).1

/-- A line on which a number sign is the first character that is shown outside union openings. -/
def Directive (t : Text) : Prop :=
  ∃ p, t.Ink p '#' ∧ ¬InOpening t p ∧ ∀ q c, t.Ink q c → ¬InOpening t q → p ≤ q

theorem isDirective_blank_iff : isDirective (blank t) = true ↔ Directive t := by
  rw [isDirective, beq_iff_eq, head?_trimStart_eq_some_iff (by decide)]
  simp only [ink_blank_iff, Directive, and_assoc, and_imp]

instance : Decidable (Directive t) := decidable_of_iff _ isDirective_blank_iff

theorem directive_append_spaces {n : Nat} : Directive (t ++ spaces n) ↔ Directive t := by
  have same : ∀ p c, Ink (t ++ spaces n) p c ↔ t.Ink p c := fun p c => by
    rw [ink_append, or_iff_left fun ⟨_, _, ink⟩ => not_ink_spaces ink]
  simp only [Directive, same, inOpening_append_spaces]

/-- The statements of a line are those of its pieces, or an empty one for a directive. -/
theorem ofLine_eq (n : Nat) (t : Text) :
    (Directive t ∧ ofLine n t = [{ text := [], line := n, column := 1 }]) ∨
      (¬Directive t ∧ ofLine n t = (pieces 0 (blank t)).map (ofPiece n)) := by
  rw [ofLine, ← isDirective_blank_iff]
  split
  next is => exact .inl ⟨is, rfl⟩
  next other => exact .inr ⟨other, rfl⟩

/-- What the statements of a line show is what stands on it outside union openings, but for
semicolons, closing braces and directives. -/
theorem shows_ofLine_iff {n : Nat} : (∃ s ∈ ofLine n t, s.Shows p c) ↔
    t.Ink p c ∧ ¬InOpening t p ∧ c ≠ ';' ∧ c ≠ '}' ∧ ¬Directive t := by
  rcases ofLine_eq n t with ⟨is, eq⟩ | ⟨other, eq⟩
  · rw [eq]
    refine iff_of_false ?_ fun kept => kept.2.2.2.2 is
    rintro ⟨_, mem, q, -, ink⟩
    obtain rfl := List.mem_singleton.mp mem
    exact not_has_nil ink.1
  · have shown : PieceShows (0, blank t) p c ↔ t.Ink p c ∧ ¬InOpening t p := by
      simp [PieceShows, ink_blank_iff]
    simp only [eq, List.mem_map, exists_exists_and_eq_and, shows_ofPiece_iff, ← and_assoc,
      exists_and_right]
    rw [pieceShows_pieces_iff, shown]
    simp [other]

theorem line_of_mem_ofLine {n : Nat} {s : Statement} (mem : s ∈ ofLine n t) : s.line = n := by
  rcases ofLine_eq n t with ⟨-, eq⟩ | ⟨-, eq⟩ <;> rw [eq] at mem
  · exact (List.mem_singleton.mp mem) ▸ rfl
  · obtain ⟨piece, -, rfl⟩ := List.mem_map.mp mem
    rfl

theorem column_pos_of_mem_ofLine {n : Nat} {s : Statement} (mem : s ∈ ofLine n t) :
    0 < s.column := by
  rcases ofLine_eq n t with ⟨-, eq⟩ | ⟨-, eq⟩ <;> rw [eq] at mem
  · exact (List.mem_singleton.mp mem) ▸ Nat.one_pos
  · obtain ⟨piece, -, rfl⟩ := List.mem_map.mp mem
    exact Nat.succ_pos _

/-- The statements of a line stand one behind the other. -/
theorem ordered_ofLine (n : Nat) (t : Text) : (ofLine n t).Pairwise Before := by
  rcases ofLine_eq n t with ⟨-, eq⟩ | ⟨-, eq⟩ <;> rw [eq]
  · exact List.pairwise_singleton ..
  · exact List.pairwise_map.mpr ((pieces_follow 0 _).2.imp fun follows => before_ofPiece n follows)

/-- The text of a statement is trimmed, and an opening brace is the last of it. -/
theorem text_of_mem_ofLine {n : Nat} {s : Statement} (mem : s ∈ ofLine n t) :
    s.text.trim = s.text ∧ ∀ before after, s.text = before ++ '{' :: after → after = [] := by
  rcases ofLine_eq n t with ⟨-, eq⟩ | ⟨-, eq⟩ <;> rw [eq] at mem
  · obtain rfl := List.mem_singleton.mp mem
    exact ⟨rfl, by simp⟩
  · obtain ⟨piece, within, rfl⟩ := List.mem_map.mp mem
    exact ⟨trim_trim _, fun before after split => brace_of_ofPiece within split⟩

end Statement

end FieldTables
