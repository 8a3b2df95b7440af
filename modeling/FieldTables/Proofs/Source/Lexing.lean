import FieldTables.Proofs.Source.Acceptance
import FieldTables.Proofs.Text.Word

/-!
# The lexemes of a text

A text is cut into lexemes in one way only: blanks may stand anywhere between two of them, and a
word goes on as long as it can. Reading finds these lexemes, whatever the column of the text is.
-/

namespace FieldTables

open Outcome

/-- A blank is in no name. -/
theorem Text.isNameCharacter_of_isBlank {c : Char} (blank : isBlank c = true) :
    isNameCharacter c = false := by
  have among : ∀ code ∈ blankCodes, isNameCharacter (Char.ofNat code) = false := by decide
  have own := among c.toNat (List.contains_iff_mem.mp blank)
  rwa [Char.ofNat_toNat] at own

/-- A name character is not blank. -/
theorem Text.not_isBlank_of_isNameCharacter {c : Char} (name : isNameCharacter c = true) :
    isBlank c = false := by
  rw [← Bool.not_eq_true]
  intro blank
  cases (isNameCharacter_of_isBlank blank).symm.trans name

/-- A lexeme is spelled as it should be and ends where the rest of its text begins. -/
def Lexeme.Ends (rest : Text) : Lexeme → Prop
  | word name => name.isIdentifier = true ∧ rest.startsApart = true
  | group inside => ∀ c ∈ inside, Piece.isInside c = true
  | star | brace => True

/-- A lexeme that ends in front of a text can stand alone. -/
theorem Lexeme.Ends.alone {l : Lexeme} {rest : Text} (ends : l.Ends rest) : l.Ends [] := by
  cases l with
  | word name => exact ⟨ends.1, rfl⟩
  | star => trivial
  | group inside => exact ends
  | brace => trivial

namespace Piece

variable {t rest : Text} {p : Piece}

/-- A piece is spelled as it should be and ends where the rest of its text begins. -/
def Ends (rest : Text) : Piece → Prop
  | lexeme l => l.Ends rest
  | gap blanks => ∀ c ∈ blanks, isBlank c = true

/-- What follows the longest run of name characters goes on with no name. -/
private theorem startsApart_dropWhile (t : Text) :
    Text.startsApart (t.dropWhile isNameCharacter) = true := by
  have first := List.head?_dropWhile_not isNameCharacter t
  rw [Text.startsApart]
  cases rest : (t.dropWhile isNameCharacter).head? with
  | none => rfl
  | some c => simpa [rest] using first

/-- The first piece of a text is cut off where it ends. -/
theorem ends_of_first? (first : first? t = some (p, rest)) : p.Ends rest := by
  cases t with
  | nil => cases first
  | cons c s =>
    rw [first?] at first
    split at first
    next letter =>
      cases first
      refine ⟨?_, startsApart_dropWhile s⟩
      rw [Text.isIdentifier, letter, List.all_takeWhile, Bool.true_and]
    split at first
    next blank =>
      cases first
      exact List.forall_mem_cons.mpr ⟨blank, fun d mem => List.mem_takeWhile_imp mem⟩
    split at first
    · cases first
      trivial
    split at first
    · cases first
      trivial
    split at first
    · split at first
      next =>
        cases first
        exact fun d mem => List.mem_takeWhile_imp mem
      next => cases first
    · cases first

/-- A lexeme that ends where the rest of a text begins is the first piece of the text. -/
theorem first?_of_ends {l : Lexeme} (ends : l.Ends rest) :
    first? (l.text ++ rest) = some (lexeme l, rest) := by
  cases l with
  | word name =>
    obtain ⟨identifier, apart⟩ := ends
    cases name with
    | nil => cases identifier
    | cons c others =>
      rw [Text.isIdentifier, Bool.and_eq_true, List.all_eq_true] at identifier
      obtain ⟨letter, name⟩ := identifier
      have stops : rest.takeWhile isNameCharacter = [] ∧ rest.dropWhile isNameCharacter = rest := by
        cases rest with
        | nil => exact ⟨rfl, rfl⟩
        | cons d _ =>
          have other : ¬isNameCharacter d = true := by simpa [Text.startsApart] using apart
          exact ⟨List.takeWhile_cons_of_neg other, List.dropWhile_cons_of_neg other⟩
      rw [Lexeme.text, List.cons_append, first?, if_pos letter, List.takeWhile_append_of_pos name,
        List.dropWhile_append_of_pos name, stops.1, stops.2, List.append_nil]
  | star => rfl
  | brace => rfl
  | group inside =>
    have stops : ¬isInside ']' = true := by decide
    have shape : Lexeme.text (.group inside) ++ rest = '[' :: (inside ++ ']' :: rest) := by
      simp [Lexeme.text]
    have close : (inside ++ ']' :: rest).dropWhile isInside = ']' :: rest := by
      rw [List.dropWhile_append_of_pos ends, List.dropWhile_cons_of_neg stops]
    have within : (inside ++ ']' :: rest).takeWhile isInside = inside := by
      rw [List.takeWhile_append_of_pos ends, List.takeWhile_cons_of_neg stops, List.append_nil]
    rw [shape, first?, if_neg (by decide), if_neg (by decide), if_neg (by decide),
      if_neg (by decide), if_pos rfl, close, within]
    rfl

end Piece

namespace Text

variable {t rest : Text} {ls more : List Lexeme}

/-- A text is cut into lexemes, with blanks anywhere between them. -/
inductive Lexed : Text → List Lexeme → Prop
  | nil : Lexed [] []
  | blank {c : Char} {t : Text} {ls : List Lexeme} (blank : isBlank c = true) (below : Lexed t ls) :
      Lexed (c :: t) ls
  | lexeme {l : Lexeme} {t : Text} {ls : List Lexeme} (ends : l.Ends t) (below : Lexed t ls) :
      Lexed (l.text ++ t) (l :: ls)

/-- Blanks in front of a text are no lexemes. -/
theorem Lexed.blanks {blanks : Text} (blank : ∀ c ∈ blanks, isBlank c = true) (below : Lexed t ls) :
    Lexed (blanks ++ t) ls := by
  induction blanks with
  | nil => exact below
  | cons c rest ih =>
    obtain ⟨here, later⟩ := List.forall_mem_cons.mp blank
    exact .blank here (ih later)

end Text

namespace Token

open Text

variable {t : Text} {column : Nat} {tokens : List Token} {ls : List Lexeme}

/-- A text that is read is cut into the lexemes of its tokens. -/
theorem lexed_of_read (ok : read column t = .ok tokens) : Lexed t (tokens.map lexeme) := by
  fun_induction read column t generalizing tokens with
  | case1 _ t _ empty =>
    cases ok
    rw [List.isEmpty_iff.mp empty]
    exact .nil
  | case2 => cases ok
  | case3 column t p rest first ih =>
    obtain ⟨others, below, result⟩ := bind_eq_ok_iff.mp ok
    cases result
    have ends := Piece.ends_of_first? first
    rw [← Piece.first?_append first, List.map_append]
    cases p with
    | gap blanks => exact (ih below).blanks ends
    | lexeme l => exact .lexeme ends (ih below)

/-- The piece at the start of a text is read first, and the rest from the column where it ends. -/
theorem read_of_first? {rest : Text} {p : Piece} (first : Piece.first? t = some (p, rest)) :
    read column t = (read (column + p.text.width) rest).map (p.tokens column ++ ·) := by
  rw [read]
  split
  next failed => cases failed.symm.trans first
  next found =>
    cases found.symm.trans first
    rfl

/-- Blanks in front of a text shift the column. -/
theorem read_trimStart (column : Nat) (t : Text) :
    read column t = read (column + t.indent.width) t.trimStart := by
  cases t with
  | nil => rfl
  | cons c rest =>
    cases blank : isBlank c with
    | true =>
      have letter : ¬isLetter c = true := fun letter => by
        have name := isNameCharacter_of_isLetter letter
        rw [isNameCharacter_of_isBlank blank] at name
        cases name
      have first : Piece.first? (c :: rest) =
          some (.gap (indent (c :: rest)), trimStart (c :: rest)) := by
        rw [Piece.first?, if_neg letter, if_pos blank, indent, trimStart,
          List.takeWhile_cons_of_pos blank, List.dropWhile_cons_of_pos blank]
      rw [read_of_first? first]
      exact congrFun Except.map_id _
    | false =>
      have visible : ¬isBlank c = true := by simp [blank]
      rw [indent, trimStart, List.takeWhile_cons_of_neg visible,
        List.dropWhile_cons_of_neg visible]
      rfl

/-- A blank in front of a text shifts the column. -/
theorem read_blank {c : Char} (blank : isBlank c = true) :
    read column (c :: t) = read (column + c.utf8Size) t := by
  rw [read_trimStart, read_trimStart (column + c.utf8Size), indent, trimStart,
    List.takeWhile_cons_of_pos blank, List.dropWhile_cons_of_pos blank, width_cons, Nat.add_assoc]
  rfl

/-- A lexeme that ends where the rest of a text begins is the first token. -/
theorem read_lexeme {l : Lexeme} (ends : l.Ends t) :
    read column (l.text ++ t) = (read (column + l.text.width) t).map (⟨l, column⟩ :: ·) :=
  read_of_first? (Piece.first?_of_ends ends)

/-- A text that is cut into lexemes is read from every column. -/
theorem exists_read_of_lexed (lexed : Lexed t ls) (column : Nat) :
    ∃ tokens, read column t = .ok tokens ∧ tokens.map lexeme = ls := by
  induction lexed generalizing column with
  | nil => exact ⟨[], by rw [read]; rfl, rfl⟩
  | blank blank _ ih =>
    rw [read_blank blank]
    exact ih _
  | @lexeme l _ _ ends _ ih =>
    obtain ⟨tokens, ok, same⟩ := ih (column + l.text.width)
    refine ⟨⟨l, column⟩ :: tokens, ?_, congrArg (l :: ·) same⟩
    rw [read_lexeme ends, ok]
    rfl

end Token

namespace Text

variable {t : Text} {ls more : List Lexeme}

/-- Blanks in front of a text are no part of any lexeme. -/
theorem lexed_trimStart_iff : Lexed t.trimStart ls ↔ Lexed t ls := by
  constructor
  · intro lexed
    have whole := lexed.blanks fun c (mem : c ∈ t.indent) => List.mem_takeWhile_imp mem
    rwa [indent_append_trimStart] at whole
  · intro lexed
    obtain ⟨tokens, ok, rfl⟩ := Token.exists_read_of_lexed lexed 0
    rw [Token.read_trimStart] at ok
    exact Token.lexed_of_read ok

/-- The lexemes of a text stand in it, and each can stand alone. -/
theorem Lexed.forall_mem (lexed : Lexed t ls) : ∀ l ∈ ls, l.Ends [] ∧ l.text ⊆ t := by
  induction lexed with
  | nil => exact List.forall_mem_nil _
  | blank _ _ ih => exact fun l mem => ⟨(ih l mem).1, List.subset_cons_of_subset _ (ih l mem).2⟩
  | lexeme ends _ ih =>
    refine List.forall_mem_cons.mpr ⟨⟨ends.alone, List.subset_append_left ..⟩, fun l mem => ?_⟩
    exact ⟨(ih l mem).1, List.subset_append_of_subset_right _ (ih l mem).2⟩

/-- A text is cut into lexemes in one way only. -/
theorem Lexed.unique (first : Lexed t ls) (second : Lexed t more) : ls = more := by
  obtain ⟨tokens, ok, rfl⟩ := Token.exists_read_of_lexed first 0
  obtain ⟨others, ok', rfl⟩ := Token.exists_read_of_lexed second 0
  cases ok.symm.trans ok'
  rfl

end Text

namespace Statement

open Text

variable {v : Vocabulary} {s : Statement} {f : Field} {tag : Text} {ls : List Lexeme}

/-- A statement is cut into tokens when its text is cut into their lexemes. -/
theorem lexed_iff :
    Lexed s.text ls ↔ ∃ tokens, s.tokens = .ok tokens ∧ tokens.map Token.lexeme = ls := by
  rw [Statement.tokens]
  constructor
  · intro lexed
    obtain ⟨tokens, ok, same⟩ := Token.exists_read_of_lexed lexed s.column
    rw [ok]
    exact ⟨tokens, rfl, same⟩
  · rintro ⟨tokens, ok, rfl⟩
    split at ok
    next read =>
      cases ok
      exact Token.lexed_of_read read
    next => cases ok

/-- A statement opens a tag when its lexemes are the keyword, the tag and a brace. -/
theorem opens_iff : s.Opens tag ↔ Lexed s.text [.word structKeyword, .word tag, .brace] := by
  rw [lexed_iff]
  constructor
  · rintro ⟨first, second, third, cut⟩
    exact ⟨_, cut, rfl⟩
  · rintro ⟨tokens, cut, lexemes⟩
    obtain ⟨⟨_, first⟩, ⟨_, second⟩, ⟨_, third⟩, rfl, rfl, rfl, rfl⟩ :=
      exists_of_map_eq_three lexemes
    exact ⟨first, second, third, cut⟩

end Statement

end FieldTables
