import FieldTables.Proofs.Source.Composition

/-!
# The tokens of a statement

A statement is cut into tokens exactly when its text is put together from pieces. Its tokens are the
lexemes that are found when the longest piece is taken at each place; they do not overlap, and all
that stands between them is blank. Any other statement is refused where its text breaks.
-/

namespace FieldTables

open Outcome Text

/-- Tokens show a text but for its blanks, each at its column. -/
structure Statement.Shown (s : Statement) (tokens : List Token) : Prop where
  /-- Each token stands in the text at its offset from the column of the statement. -/
  within : ∀ token ∈ tokens, ∃ before after, s.text = before ++ token.lexeme.text ++ after ∧
    token.column = s.column + before.width
  /-- No token starts before the one in front of it ends. -/
  apart : tokens.Pairwise fun first second =>
    first.column + first.lexeme.text.width ≤ second.column
  /-- A character that is in no token is blank. -/
  outside : ∀ p c, s.text.Has p c → isBlank c = true ∨ ∃ token ∈ tokens,
    token.column ≤ s.column + p ∧
      s.column + p + c.utf8Size ≤ token.column + token.lexeme.text.width
  /-- The characters of the text that are not blank are those of the tokens. -/
  recovered : s.text.filter (!isBlank ·) =
    tokens.flatMap fun token => token.lexeme.text.filter (!isBlank ·)

namespace Token

variable {pieces : List Piece} {column : Nat} {token : Token}

/-- A token of pieces stands among them, at its column. -/
theorem exists_of_mem_placed (mem : token ∈ placed column pieces) :
    ∃ before after, pieces.flatMap Piece.text = before ++ token.lexeme.text ++ after ∧
      token.column = column + width before := by
  induction pieces generalizing column with
  | nil => cases mem
  | cons p rest ih =>
    rw [List.flatMap_cons]
    rcases List.mem_append.mp mem with here | later
    · cases p with
      | lexeme l =>
        obtain rfl := List.mem_singleton.mp here
        exact ⟨[], rest.flatMap Piece.text, rfl, rfl⟩
      | gap blanks => cases here
    · obtain ⟨before, after, whole, place⟩ := ih later
      refine ⟨p.text ++ before, after, ?_, ?_⟩
      · rw [whole]
        simp
      · rw [place, width_append, Nat.add_assoc]

/-- The tokens of pieces do not overlap. -/
theorem pairwise_placed (column : Nat) (pieces : List Piece) :
    (placed column pieces).Pairwise fun first second =>
      first.column + first.lexeme.text.width ≤ second.column := by
  induction pieces generalizing column with
  | nil => exact .nil
  | cons p rest ih =>
    cases p with
    | gap blanks => exact ih _
    | lexeme l =>
      refine List.pairwise_cons.mpr ⟨?_, ih _⟩
      intro second later
      obtain ⟨before, after, -, place⟩ := exists_of_mem_placed later
      rw [place]
      exact Nat.le_add_right ..

/-- What pieces show is blank or part of a token. -/
theorem blank_or_mem_placed (each : ∀ p ∈ pieces, p.Spelled) {p : Nat} {c : Char}
    (has : Has (pieces.flatMap Piece.text) p c) :
    isBlank c = true ∨ ∃ token ∈ placed column pieces, token.column ≤ column + p ∧
      column + p + c.utf8Size ≤ token.column + token.lexeme.text.width := by
  induction pieces generalizing column p with
  | nil => exact absurd has not_has_nil
  | cons piece rest ih =>
    obtain ⟨spelled, each⟩ := List.forall_mem_cons.mp each
    rw [List.flatMap_cons] at has
    rcases has_append.mp has with here | ⟨q, rfl, later⟩
    · cases piece with
      | gap blanks =>
        obtain ⟨before, after, split, -⟩ := here
        have split : blanks = before ++ c :: after := split
        exact .inl (spelled.2 c (by simp [split]))
      | lexeme l =>
        have bound : p + c.utf8Size ≤ l.text.width := here.add_size_le
        refine .inr ⟨⟨l, column⟩, List.mem_cons_self, Nat.le_add_right .., ?_⟩
        rw [Nat.add_assoc]
        exact Nat.add_le_add_left bound column
    · rw [← Nat.add_assoc]
      rcases @ih (column + piece.text.width) each q later with blank | ⟨token, mem, bounds⟩
      · exact .inl blank
      · exact .inr ⟨token, List.mem_append_right _ mem, bounds⟩

/-- Without blanks, pieces are their tokens. -/
theorem filter_flatMap_text (each : ∀ p ∈ pieces, p.Spelled) (column : Nat) :
    (pieces.flatMap Piece.text).filter (!isBlank ·) =
      (placed column pieces).flatMap fun token => token.lexeme.text.filter (!isBlank ·) := by
  induction pieces generalizing column with
  | nil => rfl
  | cons p rest ih =>
    obtain ⟨spelled, each⟩ := List.forall_mem_cons.mp each
    rw [List.flatMap_cons, List.filter_append, ih each (column + p.text.width), placed,
      List.flatMap_append]
    cases p with
    | lexeme l => simp [Piece.text, Piece.tokens]
    | gap blanks =>
      have dropped : blanks.filter (!isBlank ·) = [] := by simpa using spelled.2
      simp [Piece.text, Piece.tokens, dropped]

end Token

namespace Statement

/-- A statement is cut into tokens exactly when its text is put together from pieces. The tokens are
those of the longest pieces, each at its column, and show the text but for its blanks. Any other
text breaks behind the longest front that is put together from pieces, and the error quotes the
stretch from there up to the next place where a piece starts. -/
theorem tokens_decide_composition (s : Statement) :
    ((∃ tokens, s.tokens = .ok tokens) ↔ s.text.Composed) ∧
      (∀ tokens, s.tokens = .ok tokens ↔
        s.Shown tokens ∧ ∃ pieces, s.text.Munched pieces ∧
          tokens = Token.placed s.column pieces) ∧
      (∀ e, s.tokens = .error e ↔ ∃ front stretch, s.text.Breaks front stretch ∧
        e = .syntactic s.line (s.column + front.width) (.unsupported stretch s.text)) ∧
      ∀ stretch, (SyntaxError.unsupported stretch s.text).message =
        "Unsupported syntax ".toList ++ stretch.quoted ++ " in ".toList ++ s.text.quoted := by
  have ok_iff : ∀ tokens, s.tokens = .ok tokens ↔ Token.read s.column s.text = .ok tokens := by
    intro tokens
    rw [Statement.tokens]
    cases Token.read s.column s.text with
    | ok _ => simp
    | error _ => simp
  have error_iff : ∀ e, s.tokens = .error e ↔ ∃ place stretch,
      Token.read s.column s.text = .error (place, stretch) ∧
        e = .syntactic s.line place (.unsupported stretch s.text) := by
    intro e
    rw [Statement.tokens]
    cases Token.read s.column s.text with
    | ok _ => simp
    | error found =>
      obtain ⟨place, stretch⟩ := found
      simp [eq_comm]
  refine ⟨⟨?_, ?_⟩, ?_, ?_, fun stretch => rfl⟩
  · rintro ⟨tokens, ok⟩
    exact Token.composed_of_read ((ok_iff tokens).mp ok)
  · intro composed
    obtain ⟨tokens, ok⟩ := Token.exists_read_of_composed composed s.column
    exact ⟨tokens, (ok_iff tokens).mpr ok⟩
  · intro tokens
    rw [ok_iff, Token.read_eq_ok_iff, iff_and_self]
    rintro ⟨pieces, munched, rfl⟩
    obtain ⟨whole, each⟩ := munched.spelled
    refine ⟨?_, Token.pairwise_placed s.column pieces, ?_, ?_⟩
    · rw [whole]
      exact fun token mem => Token.exists_of_mem_placed mem
    · rw [whole]
      exact fun p c has => Token.blank_or_mem_placed each has
    · rw [whole]
      exact Token.filter_flatMap_text each s.column
  · intro e
    rw [error_iff]
    constructor
    · rintro ⟨place, stretch, failed, rfl⟩
      obtain ⟨front, breaks, rfl⟩ := Token.exists_breaks_of_read_error failed
      exact ⟨front, stretch, breaks, rfl⟩
    · rintro ⟨front, stretch, breaks, rfl⟩
      cases read : Token.read s.column s.text with
      | ok tokens => exact absurd (Token.composed_of_read read) breaks.not_composed
      | error found =>
        obtain ⟨place, stretch'⟩ := found
        obtain ⟨front', breaks', rfl⟩ := Token.exists_breaks_of_read_error read
        obtain ⟨rfl, rfl⟩ := breaks.unique breaks'
        exact ⟨_, _, rfl, rfl⟩

/-- A bit field: no piece starts at the colon, but one starts right behind it. -/
example : (Token.read 5 "unsigned int flags : 3".toList) = .error (24, [':']) := by decide +kernel

end Statement

end FieldTables
