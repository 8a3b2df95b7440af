import FieldTables.Error
import FieldTables.Source.Statement
import FieldTables.Text.Character

/-!
# Lexemes

A statement is a sequence of lexemes with blanks between them: words, stars, bracketed groups and
opening braces. The longest piece is taken at each place. Where no piece starts, the stretch up to
the next place where one does is reported.

`Piece.first?_append` states that a piece and what it leaves are the text itself, so nothing is
lost.
-/

namespace FieldTables

/-- A lexeme of a statement. -/
inductive Lexeme where
  /-- An identifier, whether a keyword, a type or a name. -/
  | word (name : Text)
  /-- A star. -/
  | star
  /-- What stands between two square brackets, without any bracket inside. -/
  | group (inside : Text)
  /-- An opening brace. -/
  | brace
  deriving DecidableEq

/-- A lexeme as it is written. -/
def Lexeme.text : Lexeme → Text
  | word name => name
  | star => ['*']
  | group inside => '[' :: inside ++ [']']
  | brace => ['{']

/-- A lexeme and the byte column at which it starts. -/
structure Token where
  /-- The lexeme. -/
  lexeme : Lexeme
  /-- The byte column in the physical line. -/
  column : Nat
  deriving DecidableEq

/-- What a statement is made of. -/
inductive Piece where
  /-- A lexeme. -/
  | lexeme (l : Lexeme)
  /-- A run of blanks. -/
  | gap (blanks : Text)
  deriving DecidableEq

namespace Piece

/-- A piece as it is written. -/
def text : Piece → Text
  | lexeme l => l.text
  | gap blanks => blanks

/-- A lexeme gives a token; blanks give none. -/
def tokens (column : Nat) : Piece → List Token
  | lexeme l => [⟨l, column⟩]
  | gap _ => []

/-- Whether a character is no square bracket. -/
def isInside (c : Char) : Bool := c != '[' && c != ']'

/-- The longest piece at the start of a text, and the text after it. -/
def first? : Text → Option (Piece × Text)
  | [] => none
  | c :: rest =>
    if isLetter c then
      some (lexeme (.word (c :: rest.takeWhile isNameCharacter)), rest.dropWhile isNameCharacter)
    else if isBlank c then
      some (gap (c :: rest.takeWhile isBlank), rest.dropWhile isBlank)
    else if c = '*' then some (lexeme .star, rest)
    else if c = '{' then some (lexeme .brace, rest)
    else if c = '[' then
      match rest.dropWhile isInside with
      | ']' :: after => some (lexeme (.group (rest.takeWhile isInside)), after)
      | _ => none
    else none

/-- A piece and what it leaves are the text itself. -/
theorem first?_append {t rest : Text} {p : Piece} (h : first? t = some (p, rest)) :
    p.text ++ rest = t := by
  cases t with
  | nil => simp [first?] at h
  | cons c s =>
    simp only [first?] at h
    split at h
    · obtain ⟨rfl, rfl⟩ := by simpa using h
      simp [text, Lexeme.text]
    split at h
    · obtain ⟨rfl, rfl⟩ := by simpa using h
      simp [text]
    split at h
    next hstar =>
      obtain ⟨rfl, rfl⟩ := by simpa using h
      simp [text, Lexeme.text, hstar]
    split at h
    next hbrace =>
      obtain ⟨rfl, rfl⟩ := by simpa using h
      simp [text, Lexeme.text, hbrace]
    split at h
    next hopen =>
      split at h
      next after hclose =>
        obtain ⟨rfl, rfl⟩ := by simpa using h
        have whole := List.takeWhile_append_dropWhile (p := isInside) (l := s)
        rw [hclose] at whole
        simp [text, Lexeme.text, hopen, whole]
      next => simp at h
    · simp at h

/-- No piece is empty. -/
theorem text_ne_nil {t rest : Text} {p : Piece} (h : first? t = some (p, rest)) : p.text ≠ [] := by
  cases t with
  | nil => simp [first?] at h
  | cons c s =>
    grind [first?, text, Lexeme.text]

/-- A piece leaves less than there was. -/
theorem length_lt_of_first? {t rest : Text} {p : Piece} (h : first? t = some (p, rest)) :
    rest.length < t.length := by
  have whole := congrArg List.length (first?_append h)
  have positive := List.length_pos_iff.mpr (text_ne_nil h)
  simp at whole
  omega

end Piece

namespace Token

/-- The stretch of a text up to the first place where a piece starts. -/
def unreadable : Text → Text
  | [] => []
  | c :: rest => if (Piece.first? (c :: rest)).isSome then [] else c :: unreadable rest

/-- The tokens of a text that starts at a byte column, or the column and the stretch at which no
piece starts. -/
def read (column : Nat) (t : Text) : Except (Nat × Text) (List Token) :=
  match _h : Piece.first? t with
  | none => if t.isEmpty then .ok [] else .error (column, unreadable t)
  | some (p, rest) => do
    let others ← read (column + p.text.width) rest
    return p.tokens column ++ others
  termination_by t.length
  decreasing_by exact Piece.length_lt_of_first? _h

end Token

/-- The tokens of a statement. -/
def Statement.tokens (s : Statement) : Except Error (List Token) :=
  match Token.read s.column s.text with
  | .ok tokens => .ok tokens
  | .error (column, stretch) => .error (.syntactic s.line column (.unsupported stretch s.text))

end FieldTables
