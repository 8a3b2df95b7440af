import FieldTables.Proofs.Source.Statement
import Mathlib.Data.List.Pairwise

/-!
# Where statements stand

What is left of a header text are its characters outside comments, union openings and directives,
but for semicolons and closing braces. Each byte of them is in one statement, whose line and column
say where the byte stands in its physical line. Nothing else is shown in a statement, and the
statements come in the order of the text.
-/

namespace FieldTables

open Text Comment Wrapper

/-- The physical lines of a header text, without encoding markers. -/
def Text.sourceLines (t : Text) : List Text := t.physicalLines.map withoutMarkers

theorem Text.getElem?_sourceLines_iff {t line : Text} {i : Nat} : t.sourceLines[i]? = some line ↔
    ∃ raw, t.physicalLines[i]? = some raw ∧ raw.withoutMarkers = line := by
  rw [sourceLines, List.getElem?_map, Option.map_eq_some_iff]

/-- Whether a block comment is open after lines. -/
def Comment.openAfter (inside : Bool) (lines : List Text) : Bool :=
  lines.foldl (fun inside line => ((State.start inside).after line).inBlock) inside

namespace Statement

variable {inside : Bool} {t line : Text} {n p q k : Nat} {c : Char} {s : Statement}

/-- A character that is kept starts at a byte of a line. Union openings and directives are told with
the comments of the line blanked out. -/
structure Kept (inside : Bool) (line : Text) (p : Nat) (c : Char) : Prop where
  code : Code (.start inside) line p c
  visible : isBlank c = false
  wrapper : ¬InOpening (shown (.start inside) line) p
  semicolon : c ≠ ';'
  closing : c ≠ '}'
  directive : ¬Directive (shown (.start inside) line)

/-- A byte of a line belongs to a character that is kept. -/
def KeptByte (inside : Bool) (line : Text) (p : Nat) : Prop :=
  ∃ q c, Kept inside line q c ∧ q ≤ p ∧ p < q + c.utf8Size

/-- A byte of a text belongs to a character that is not blank. -/
def InkByte (t : Text) (p : Nat) : Prop := ∃ q c, t.Ink q c ∧ q ≤ p ∧ p < q + c.utf8Size

/-- A byte of a line is within the text of a statement. -/
def Covers (s : Statement) (n p : Nat) : Prop :=
  s.line = n ∧ s.column ≤ p + 1 ∧ p + 1 < s.column + s.text.width

/-- The statements of a header text show what is kept of it, where it is. -/
structure PositionExact (t : Text) (statements : List Statement) : Prop where
  /-- Each byte that is kept is in one statement, at its offset from the column. -/
  lossless : ∀ i line, t.sourceLines[i]? = some line →
    ∀ p, KeptByte (openAfter false (t.sourceLines.take i)) line p →
      ∃ s ∈ statements, s.Covers (i + 1) p ∧ s.text.byte? (p + 1 - s.column) = line.byte? p ∧
        ∀ other ∈ statements, other.Covers (i + 1) p → other = s
  /-- Each byte of a text that is not blank is kept from the place that the statement gives. -/
  faithful : ∀ s ∈ statements, ∀ k, InkByte s.text k →
    ∃ i line p, t.sourceLines[i]? = some line ∧ s.line = i + 1 ∧ p + 1 = s.column + k ∧
      KeptByte (openAfter false (t.sourceLines.take i)) line p ∧
        s.text.byte? k = line.byte? p
  /-- The statements come in the order of the text and do not overlap. -/
  ordered : statements.Pairwise Before
  /-- No text has blanks at its ends. -/
  trimmed : ∀ s ∈ statements, s.text.trim = s.text
  noSemicolon : ∀ s ∈ statements, ';' ∉ s.text
  noClosing : ∀ s ∈ statements, '}' ∉ s.text
  noBlockComment : ∀ s ∈ statements, ¬['/', '*'] <:+: s.text
  noLineComment : ∀ s ∈ statements, ¬['/', '/'] <:+: s.text
  /-- An opening brace is the last of its text. -/
  openingLast : ∀ s ∈ statements, ∀ before after, s.text = before ++ '{' :: after → after = []

/-- Stripping shows the characters outside comments. -/
theorem ink_strip_iff :
    (strip inside line).1.Ink p c ↔ Code (.start inside) line p c ∧ isBlank c = false := by
  obtain ⟨⟨m, shows⟩, -⟩ := strip_eq inside line
  rw [← ink_shown_iff, shows, ink_append, or_iff_left fun ⟨_, _, ink⟩ => not_ink_spaces ink]

/-- Stripping leaves a directive exactly where one is shown. -/
theorem directive_strip_iff :
    Directive (strip inside line).1 ↔ Directive (shown (.start inside) line) := by
  obtain ⟨⟨m, shows⟩, -⟩ := strip_eq inside line
  rw [shows, directive_append_spaces]

/-- The statements of a line show what is kept of it. -/
theorem shows_strip_iff :
    (∃ s ∈ ofLine n (strip inside line).1, s.Shows p c) ↔ Kept inside line p c := by
  have wrapper : InOpening (strip inside line).1 p ↔ InOpening (shown (.start inside) line) p := by
    obtain ⟨⟨m, shows⟩, -⟩ := strip_eq inside line
    rw [shows, inOpening_append_spaces]
  rw [shows_ofLine_iff, ink_strip_iff, wrapper, directive_strip_iff]
  constructor
  · rintro ⟨⟨code, visible⟩, wrapper, semicolon, closing, directive⟩
    exact ⟨code, visible, wrapper, semicolon, closing, directive⟩
  · rintro ⟨code, visible, wrapper, semicolon, closing, directive⟩
    exact ⟨⟨code, visible⟩, wrapper, semicolon, closing, directive⟩

/-- The statements of lines are those of each line, read in or outside a block comment as the lines
before it leave it. -/
theorem mem_ofLines_iff {lines : List Text} :
    s ∈ ofLines inside n lines ↔ ∃ i line, (lines.map withoutMarkers)[i]? = some line ∧
      s ∈ ofLine (n + i)
        (strip (openAfter inside ((lines.map withoutMarkers).take i)) line).1 := by
  induction lines generalizing inside n with
  | nil => simp [ofLines]
  | cons first rest ih =>
    rw [ofLines, List.mem_append, (strip_eq inside first.withoutMarkers).2, ih]
    constructor
    · rintro (here | ⟨i, line, at_, later⟩)
      · exact ⟨0, first.withoutMarkers, rfl, here⟩
      · refine ⟨i + 1, line, at_, ?_⟩
        rwa [Nat.add_right_comm, Nat.add_assoc] at later
    · rintro ⟨_ | i, line, at_, mem⟩
      · cases at_
        exact .inl mem
      · refine .inr ⟨i, line, at_, ?_⟩
        rwa [Nat.add_right_comm, Nat.add_assoc]

/-- The statements of a header text are those of its source lines, which are counted from one. -/
theorem mem_ofText_iff : s ∈ ofText t ↔ ∃ i line, t.sourceLines[i]? = some line ∧
    s ∈ ofLine (i + 1) (strip (openAfter false (t.sourceLines.take i)) line).1 := by
  rw [ofText, mem_ofLines_iff]
  simp only [Nat.add_comm 1]
  rfl

theorem column_pos_of_mem_ofText (mem : s ∈ ofText t) : 0 < s.column := by
  obtain ⟨i, line, -, mem⟩ := mem_ofText_iff.mp mem
  exact column_pos_of_mem_ofLine mem

/-- The statements of lines stand one behind the other. -/
theorem ordered_ofLines (inside : Bool) (n : Nat) (lines : List Text) :
    (ofLines inside n lines).Pairwise Before := by
  induction lines generalizing inside n with
  | nil => exact .nil
  | cons first rest ih =>
    refine List.pairwise_append.mpr ⟨ordered_ofLine .., ih .., fun a here b later => .inl ?_⟩
    obtain ⟨i, line, -, mem⟩ := mem_ofLines_iff.mp later
    rw [line_of_mem_ofLine here, line_of_mem_ofLine mem]
    omega

/-- A statement that shows a character covers its bytes and has them in its text. -/
theorem covers_of_shows (shows : s.Shows q c) (has : line.Has q c) (lower : q ≤ p)
    (upper : p < q + c.utf8Size) :
    s.Covers s.line p ∧ s.text.byte? (p + 1 - s.column) = line.byte? p := by
  obtain ⟨r, same, ink⟩ := shows
  have fits := ink.1.add_size_le
  obtain ⟨k, rfl⟩ := Nat.exists_eq_add_of_le lower
  have inside : k < c.utf8Size := by omega
  refine ⟨⟨rfl, by omega, by omega⟩, ?_⟩
  rw [has.byte? inside, show q + k + 1 - s.column = r + k by omega, ink.1.byte? inside]

/-- A statement does not cover a byte of one before it. -/
theorem Before.not_covers {a b : Statement} (before : a.Before b) (covers : a.Covers n p) :
    ¬b.Covers n p := by
  rintro ⟨line, lower, upper⟩
  obtain ⟨rfl, lower', upper'⟩ := covers
  rcases before with earlier | ⟨-, -, ends⟩ <;> omega

/-- A byte is covered by one statement only. -/
theorem eq_of_covers {statements : List Statement} (ordered : statements.Pairwise Before)
    {a b : Statement} (ha : a ∈ statements) (hb : b ∈ statements) (coversA : a.Covers n p)
    (coversB : b.Covers n p) : a = b := by
  let Alone (a b : Statement) : Prop := a.Covers n p → b.Covers n p → a = b
  have alone : statements.Pairwise Alone :=
    ordered.imp fun before coversA coversB => absurd coversB (before.not_covers coversA)
  have flipped : statements.Pairwise (flip Alone) :=
    ordered.imp fun before coversB coversA => absurd coversB (before.not_covers coversA)
  exact alone.forall_of_forall_of_flip (fun _ _ _ _ => rfl) flipped ha hb coversA coversB

/-- What the text of a statement shows is kept of the line of the statement. -/
theorem exists_kept (mem : s ∈ ofText t) :
    ∃ i line, t.sourceLines[i]? = some line ∧ s.line = i + 1 ∧
      (∀ k c, s.text.Ink k c → ∃ p, p + 1 = s.column + k ∧ s.Shows p c ∧
        Kept (openAfter false (t.sourceLines.take i)) line p c) ∧
      s.text.trim = s.text ∧ ∀ before after, s.text = before ++ '{' :: after → after = [] := by
  have positive := column_pos_of_mem_ofText mem
  obtain ⟨i, line, at_, mem⟩ := mem_ofText_iff.mp mem
  refine ⟨i, line, at_, line_of_mem_ofLine mem, fun k c ink => ?_, text_of_mem_ofLine mem⟩
  · obtain ⟨p, place⟩ := Nat.exists_eq_add_one.mpr (Nat.add_pos_left positive k)
    have shows : s.Shows p c := ⟨k, place.symm, ink⟩
    exact ⟨p, place.symm, shows, shows_strip_iff.mp ⟨s, mem, shows⟩⟩

/-- No text has a semicolon or a closing brace, and none opens a comment. -/
theorem clean_of_mem (mem : s ∈ ofText t) : ';' ∉ s.text ∧ '}' ∉ s.text ∧
    ∀ d, d = '/' ∨ d = '*' → ¬['/', d] <:+: s.text := by
  obtain ⟨i, line, -, -, kept, -⟩ := exists_kept mem
  have keptAt : ∀ before c after, s.text = before ++ c :: after → isBlank c = false →
      ∃ p, p + 1 = s.column + width before ∧
        Kept (openAfter false (t.sourceLines.take i)) line p c := by
    intro before c after split visible
    obtain ⟨p, place, -, keeps⟩ := kept (width before) c ⟨⟨before, after, split, rfl⟩, visible⟩
    exact ⟨p, place, keeps⟩
  refine ⟨fun has => ?_, fun has => ?_, fun d comment => ?_⟩
  · obtain ⟨before, after, split⟩ := List.append_of_mem has
    obtain ⟨p, -, keeps⟩ := keptAt before ';' after split (by decide)
    exact keeps.semicolon rfl
  · obtain ⟨before, after, split⟩ := List.append_of_mem has
    obtain ⟨p, -, keeps⟩ := keptAt before '}' after split (by decide)
    exact keeps.closing rfl
  · -- Both characters would be kept, one behind the other in the line too.
    rintro ⟨before, after, split⟩
    have visible : isBlank d = false := by rcases comment with rfl | rfl <;> decide
    obtain ⟨p, place, slash⟩ := keptAt before '/' (d :: after) (by simp [← split]) (by decide)
    obtain ⟨q, place', next⟩ := keptAt (before ++ ['/']) d after (by simp [← split]) visible
    have size : Char.utf8Size '/' = 1 := by decide
    rw [width_append, width_cons, size, width_nil] at place'
    obtain rfl : q = p + 1 := by omega
    obtain ⟨notSlash, notStar⟩ := slash.code.not_opens next.code.has
    rcases comment with same | same
    · exact notSlash same
    · exact notStar same

theorem ofText_positionExact (t : Text) : PositionExact t (ofText t) where
  lossless i line at_ p := by
    rintro ⟨q, c, kept, lower, upper⟩
    obtain ⟨s, mem, shows⟩ := shows_strip_iff (n := 1 + i) |>.mpr kept
    have number : s.line = i + 1 := (line_of_mem_ofLine mem).trans (Nat.add_comm ..)
    have mem : s ∈ ofText t := mem_ofLines_iff.mpr ⟨i, line, at_, mem⟩
    obtain ⟨covers, same⟩ := covers_of_shows shows kept.code.has lower upper
    rw [number] at covers
    exact ⟨s, mem, covers, same, fun other mem' covers' =>
      eq_of_covers (ordered_ofLines ..) mem' mem covers' covers⟩
  faithful s mem k := by
    rintro ⟨r, c, ink, lower, upper⟩
    obtain ⟨i, line, at_, number, kept, -⟩ := exists_kept mem
    obtain ⟨q, place, shows, keeps⟩ := kept r c ink
    have place' : q + (k - r) + 1 = s.column + k := by omega
    obtain ⟨-, same⟩ := covers_of_shows shows keeps.code.has (Nat.le_add_right q (k - r)) (by omega)
    rw [place', Nat.add_sub_cancel_left] at same
    exact ⟨i, line, q + (k - r), at_, number, place', ⟨q, c, keeps, by omega, by omega⟩, same⟩
  ordered := ordered_ofLines ..
  trimmed s mem := by
    obtain ⟨-, -, -, -, -, trimmed, -⟩ := exists_kept mem
    exact trimmed
  noSemicolon s mem := (clean_of_mem mem).1
  noClosing s mem := (clean_of_mem mem).2.1
  noBlockComment s mem := (clean_of_mem mem).2.2 '*' (.inr rfl)
  noLineComment s mem := (clean_of_mem mem).2.2 '/' (.inl rfl)
  openingLast s mem := by
    obtain ⟨-, -, -, -, -, -, last⟩ := exists_kept mem
    exact last

end Statement

end FieldTables
