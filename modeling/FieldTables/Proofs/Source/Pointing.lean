import FieldTables.Proofs.Source.Lexing
import FieldTables.Proofs.Source.Placement

/-!
# Where errors point

A statement that cannot be read is refused at a column of its line. The column leads to what the
error speaks of: the stretch that starts no lexeme, the token that has no place, or the whole
statement. So an error of a header text points at a character that is kept, on one of its lines.
-/

namespace FieldTables

open Outcome Text

/-- A stretch of a text starts at a column, with a character that is not blank. -/
def Text.StartsAt (t : Text) (start : Nat) (stretch : Text) (column : Nat) : Prop :=
  ∃ before after, t = before ++ stretch ++ after ∧ column = start + before.width ∧
    ∃ c rest, stretch = c :: rest ∧ isBlank c = false

namespace Text

variable {s t stretch : Text} {start column : Nat} {c : Char}

/-- What starts in a text starts behind any other text too. -/
theorem StartsAt.behind (starts : StartsAt t (start + s.width) stretch column) :
    StartsAt (s ++ t) start stretch column := by
  obtain ⟨before, after, rfl, rfl, first⟩ := starts
  refine ⟨s ++ before, after, by simp, ?_, first⟩
  rw [width_append, Nat.add_assoc]

/-- A trimmed text starts with a character that is not blank. -/
theorem startsAt_self (trimmed : t.trim = t) (full : t ≠ []) : StartsAt t start t start := by
  obtain ⟨c, rest, shape⟩ := List.exists_cons_of_ne_nil full
  refine ⟨[], [], by simp, rfl, c, rest, shape, ?_⟩
  by_contra blank
  rw [Bool.not_eq_false] at blank
  have fits := width_trim_le t
  have positive := c.utf8Size_pos
  have front : t.indent = c :: indent rest := by
    rw [shape, indent, List.takeWhile_cons_of_pos blank, indent]
  rw [trimmed, front, width_cons] at fits
  omega

end Text

/-- A lexeme starts with a character that is not blank. -/
theorem Lexeme.Ends.exists_cons {l : Lexeme} {rest : Text} (ends : l.Ends rest) :
    ∃ c others, l.text = c :: others ∧ isBlank c = false := by
  cases l with
  | word name =>
    obtain ⟨identifier, -⟩ := ends
    cases name with
    | nil => cases identifier
    | cons c others =>
      have name := isName_of_isIdentifier identifier c List.mem_cons_self
      exact ⟨c, others, rfl, not_isBlank_of_isNameCharacter name⟩
  | star => exact ⟨'*', [], rfl, by decide⟩
  | group inside => exact ⟨'[', inside ++ [']'], rfl, by decide⟩
  | brace => exact ⟨'{', [], rfl, by decide⟩

namespace Token

variable {t stretch : Text} {start column : Nat} {tokens : List Token}

/-- Each token of a text starts at its column. -/
theorem startsAt_of_read (ok : read start t = .ok tokens) :
    ∀ token ∈ tokens, StartsAt t start token.lexeme.text token.column := by
  fun_induction read start t generalizing tokens with
  | case1 =>
    cases ok
    exact List.forall_mem_nil _
  | case2 => cases ok
  | case3 start t p rest first ih =>
    obtain ⟨others, below, result⟩ := bind_eq_ok_iff.mp ok
    cases result
    have whole := Piece.first?_append first
    refine List.forall_mem_append.mpr ⟨?_, fun token mem => whole ▸ (ih below token mem).behind⟩
    cases p with
    | gap => exact List.forall_mem_nil _
    | lexeme l =>
      have ends : l.Ends rest := Piece.ends_of_first? first
      exact List.forall_mem_singleton.mpr ⟨[], rest, whole.symm, rfl, ends.exists_cons⟩

/-- A character that starts no piece is not blank. -/
private theorem not_blank_of_first?_eq_none {c : Char} {rest : Text}
    (failed : Piece.first? (c :: rest) = none) : isBlank c = false := by
  rw [Piece.first?] at failed
  split at failed
  · cases failed
  split at failed
  · cases failed
  next visible => simpa using visible

/-- What is unreadable is the front of a text. -/
private theorem unreadable_prefix (t : Text) : ∃ after, t = unreadable t ++ after := by
  induction t with
  | nil => exact ⟨[], rfl⟩
  | cons c rest ih =>
    rw [unreadable]
    split
    · exact ⟨c :: rest, rfl⟩
    · obtain ⟨after, shape⟩ := ih
      exact ⟨after, congrArg (c :: ·) shape⟩

/-- A text that is not read is refused where the unreadable stretch starts. -/
theorem startsAt_of_read_error (failed : read start t = .error (column, stretch)) :
    StartsAt t start stretch column := by
  fun_induction read start t with
  | case1 => cases failed
  | case2 start t failed full =>
    cases failed
    have nonempty : t ≠ [] := fun empty => full (List.isEmpty_iff.mpr empty)
    obtain ⟨c, rest, rfl⟩ := List.exists_cons_of_ne_nil nonempty
    obtain ⟨after, shape⟩ := unreadable_prefix (c :: rest)
    refine ⟨[], after, shape, rfl, c, unreadable rest, ?_, not_blank_of_first?_eq_none failed⟩
    rw [unreadable, failed]
    rfl
  | case3 start t p rest first ih =>
    rcases bind_eq_error_iff.mp failed with below | ⟨_, _, result⟩
    · rw [← Piece.first?_append first]
      exact (ih below).behind
    · cases result

end Token

/-- Whether an error speaks of a whole declaration. -/
def DeclarationError.isGlobal : DeclarationError → Bool
  | noName | noType | arrayOfStructures => true
  | _ => false

/-- The lexeme that an error speaks of, unless it speaks of the whole declaration. -/
def DeclarationError.Blames (l : Lexeme) : DeclarationError → Prop
  | afterArray => True
  | missingTag => l = .word structKeyword
  | arrayWithoutName => ∃ inside, l = .group inside
  | arrayWithoutLength => ∃ inside, l = .group inside ∧ inside.trim = []
  | unexpected text => text = l.text
  | unknownType words => ∃ name others, words = name :: others ∧ l = .word name
  | noName | noType | arrayOfStructures => False

theorem DeclarationError.Blames.isGlobal {why : DeclarationError} {l : Lexeme}
    (blames : why.Blames l) : why.isGlobal = false := by
  cases why with
  | noName | noType | arrayOfStructures => exact blames.elim
  | _ => rfl

namespace Declaration

variable {v : Vocabulary} {d r : Declaration} {tokens : List Token} {column : Nat}
  {why : DeclarationError}

/-- A token that has no place is the one at the reported column. -/
theorem blames_of_read_error (failed : read v d tokens = .error (column, why)) :
    ∃ token ∈ tokens, token.column = column ∧ why.Blames token.lexeme := by
  fun_induction read v d tokens with
  | case1 => cases failed
  | case2 d t rest closed =>
    cases failed
    exact List.exists_mem_cons_of _ ⟨rfl, trivial⟩
  | case4 d t rest goes keyword =>
    cases failed
    exact List.exists_mem_cons_of _ ⟨rfl, keyword⟩
  | case9 d t rest _ _ _ _ inside same =>
    cases failed
    exact List.exists_mem_cons_of _ ⟨rfl, inside, same⟩
  | case10 d t rest _ _ _ _ inside same _ blank =>
    cases failed
    exact List.exists_mem_cons_of _ ⟨rfl, inside, same, List.isEmpty_iff.mp blank⟩
  | case12 d t rest =>
    cases failed
    exact List.exists_mem_cons_of _ ⟨rfl, rfl⟩
  | case3 d t _ _ tag place others ih =>
    exact List.exists_mem_cons_of_exists (List.exists_mem_cons_of_exists (ih failed))
  | case5 d t rest _ _ _ ih | case6 d t rest _ _ _ _ ih | case7 d t rest _ _ _ _ _ _ ih
  | case8 d t rest _ _ _ _ _ ih | case11 d t rest _ _ _ _ _ _ _ _ ih =>
    exact List.exists_mem_cons_of_exists (ih failed)

/-- The names that are read are words among the tokens, at their columns. -/
theorem names_of_read (ok : read v d tokens = .ok r) :
    ∀ name ∈ r.names, name ∈ d.names ∨ ⟨.word name.1, name.2⟩ ∈ tokens := by
  fun_induction read v d tokens with
  | case1 =>
    cases ok
    exact fun name mem => .inl mem
  | case3 d t _ _ tag place others ih =>
    exact fun name mem => (ih ok name mem).imp_right fun later =>
      List.mem_cons_of_mem _ (List.mem_cons_of_mem _ later)
  | case5 d t rest _ _ _ ih | case6 d t rest _ _ _ _ ih | case8 d t rest _ _ _ _ _ ih
  | case11 d t rest _ _ _ _ _ _ _ _ ih =>
    exact fun name mem => (ih ok name mem).imp_right (List.mem_cons_of_mem _)
  | case7 d t rest _ _ _ _ word same ih =>
    intro name mem
    rcases ih ok name mem with before | later
    · rcases List.mem_append.mp before with before | here
      · exact .inl before
      · cases List.mem_singleton.mp here
        obtain ⟨_, place⟩ := t
        cases same
        exact .inr List.mem_cons_self
    · exact .inr (List.mem_cons_of_mem _ later)
  | _ => cases ok

/-- A declaration that gives no field is refused at its start, or at the first of its names. -/
theorem blames_of_field_error {line start : Nat}
    (failed : d.field line start = .error (column, why)) :
    (why.isGlobal = true ∧ column = start) ∨
      ∃ name, (name, column) ∈ d.names ∧ why.Blames (.word name) := by
  unfold Declaration.field at failed
  split at failed
  · cases failed
    exact .inl ⟨rfl, rfl⟩
  · split at failed
    · cases failed
      exact .inl ⟨rfl, rfl⟩
    split at failed
    · cases failed
      exact .inl ⟨rfl, rfl⟩
    · cases failed
  next name first others _ listed =>
    cases failed
    refine .inr ⟨name, listed ▸ List.mem_cons_self, name, others.map Prod.fst, ?_, rfl⟩
    rw [listed]
    rfl

end Declaration

/-- The part of a statement that a syntax error speaks of, reported at a column. -/
def SyntaxError.Blames (s : Statement) (column : Nat) (part : Text) : SyntaxError → Prop
  | unsupported stretch statement => statement = s.text ∧ part = stretch
  | badOpener statement | outside statement => statement = s.text ∧ part = s.text
  | malformed statement why => statement = s.text ∧
      if why.isGlobal then part = s.text
      else ∃ tokens token, s.tokens = .ok tokens ∧ token ∈ tokens ∧ token.column = column ∧
        why.Blames token.lexeme ∧ part = token.lexeme.text
  | orphan _ => False

namespace Statement

variable {v : Vocabulary} {s : Statement} {e : Error}

/-- A statement is refused on its line, where the part starts that the error speaks of. -/
def Refuses (s : Statement) (e : Error) : Prop :=
  ∃ column cause part, e = .syntactic s.line column cause ∧ cause.Blames s column part ∧
    StartsAt s.text s.column part column

theorem refuses_of_tokens_error (failed : s.tokens = .error e) : s.Refuses e := by
  rw [Statement.tokens] at failed
  split at failed
  · cases failed
  next column stretch read =>
    cases failed
    exact ⟨column, _, stretch, rfl, ⟨rfl, rfl⟩, Token.startsAt_of_read_error read⟩

theorem startsAt_of_tokens {tokens : List Token} (cut : s.tokens = .ok tokens) :
    ∀ token ∈ tokens, StartsAt s.text s.column token.lexeme.text token.column := by
  rw [Statement.tokens] at cut
  split at cut
  next read =>
    cases cut
    exact Token.startsAt_of_read read
  next => cases cut

theorem refuses_of_openedTag_error (trimmed : s.text.trim = s.text) (full : s.text ≠ [])
    (failed : s.openedTag = .error e) : s.Refuses e := by
  rcases bind_eq_error_iff.mp failed with cut | ⟨tokens, -, shaped⟩
  · exact refuses_of_tokens_error cut
  · have whole : s.Refuses (.syntactic s.line s.column (.badOpener s.text)) :=
      ⟨s.column, _, s.text, rfl, ⟨rfl, rfl⟩, startsAt_self trimmed full⟩
    split at shaped
    · split at shaped
      · cases shaped
      · cases shaped
        exact whole
    · cases shaped
      exact whole

theorem refuses_of_field_error (trimmed : s.text.trim = s.text) (full : s.text ≠ [])
    (failed : s.field v = .error e) : s.Refuses e := by
  rcases bind_eq_error_iff.mp failed with cut | ⟨tokens, cut, failed⟩
  · exact refuses_of_tokens_error cut
  have misplaced : ∀ {why : DeclarationError}, ∀ token ∈ tokens, why.Blames token.lexeme →
      s.Refuses (.syntactic s.line token.column (.malformed s.text why)) := by
    intro why token mem blames
    refine ⟨_, _, token.lexeme.text, rfl, ⟨rfl, ?_⟩, startsAt_of_tokens cut token mem⟩
    rw [if_neg (by simp [blames.isGlobal])]
    exact ⟨tokens, token, cut, mem, rfl, blames, rfl⟩
  cases read : Declaration.read v {} tokens >>= Declaration.field s.line s.column with
  | ok f =>
    rw [read] at failed
    cases failed
  | error reason =>
    obtain ⟨column, why⟩ := reason
    rw [read] at failed
    cases failed
    rcases bind_eq_error_iff.mp read with misread | ⟨d, read, unfinished⟩
    · obtain ⟨token, mem, rfl, blames⟩ := Declaration.blames_of_read_error misread
      exact misplaced token mem blames
    · rcases Declaration.blames_of_field_error unfinished with ⟨whole, rfl⟩ | ⟨name, mem, blames⟩
      · refine ⟨s.column, _, s.text, rfl, ⟨rfl, ?_⟩, startsAt_self trimmed full⟩
        rw [if_pos whole]
      · exact misplaced _ ((Declaration.names_of_read read _ mem).resolve_left nofun) blames

end Statement

/-- A statement that stops the reading of a header: it opens no tag, stands in front of every
structure, or declares no field. -/
def Statement.Stops (s : Statement) (e : Error) : Prop :=
  s.openedTag = .error e ∨ e = .syntactic s.line s.column (.outside s.text) ∨
    ∃ v, s.field v = .error e

/-- Statements are not cut into blocks because one of them stops it. -/
theorem Block.exists_stops_of_ofNonempty_error {statements : List Statement} {e : Error}
    (failed : ofNonempty statements = .error e) : ∃ s ∈ statements, s.Stops e := by
  induction statements using ofNonempty.induct with
  | case1 =>
    rw [ofNonempty] at failed
    cases failed
  | case2 s rest opening ih =>
    rw [ofNonempty, if_pos opening] at failed
    rcases bind_eq_error_iff.mp failed with here | ⟨tag, -, failed⟩
    · exact ⟨s, List.mem_cons_self, .inl here⟩
    rcases bind_eq_error_iff.mp failed with below | ⟨others, -, result⟩
    · obtain ⟨t, mem, stops⟩ := ih below
      exact ⟨t, List.mem_cons_of_mem s (List.dropWhile_subset _ mem), stops⟩
    · cases result
  | case3 s rest other =>
    rw [ofNonempty, if_neg other] at failed
    cases failed
    exact ⟨s, List.mem_cons_self, .inr (.inl rfl)⟩

namespace Header

variable {v : Vocabulary} {h grown : Header} {e : Error} {line column : Nat} {cause : SyntaxError}

/-- A structure that is opened is there for its fields. -/
private theorem names_ne_nil_of_addStructure {name : Text}
    (ok : h.addStructure name line = .ok grown) : grown.names ≠ [] := by
  unfold addStructure at ok
  split at ok
  next inserted =>
    cases ok
    rw [Roster.names, (Roster.insert?_eq_some_iff.mp inserted).2]
    simp
  next => cases ok

/-- A field that is added leaves all structures there. -/
private theorem names_of_addField {f : Field} (ok : h.addField f = .ok grown) :
    grown.names = h.names := by
  unfold addField at ok
  split at ok
  next => cases ok
  next s last =>
    split at ok
    next fields inserted =>
      cases ok
      exact Roster.names_replace ..
    next => cases ok

/-- Adding a field to a structure that is there fails only when its name is taken. -/
private theorem not_syntactic_of_addField {f : Field} (there : h.names ≠ []) :
    h.addField f ≠ .error (.syntactic line column cause) := by
  intro failed
  unfold addField at failed
  split at failed
  next absent =>
    have empty : h.entries = [] := List.getLast?_eq_none_iff.mp absent
    rw [Roster.names, empty] at there
    exact there rfl
  next => split at failed <;> cases failed

/-- A block is not added because one of its statements stops it, or because a name is taken. -/
private theorem exists_stops_of_addBlock_error {b : Block}
    (failed : h.addBlock v b = .error (.syntactic line column cause)) :
    ∃ s ∈ b.body, s.Stops (.syntactic line column cause) := by
  rcases bind_eq_error_iff.mp failed with taken | ⟨opened, start, failed⟩
  · unfold addStructure at taken
    split at taken <;> cases taken
  have step : ∀ before after : Header, ∀ s ∈ b.body, before.names ≠ [] →
      (do before.addField (← s.field v)) = .ok after → after.names ≠ [] := by
    intro before after s _ there added
    obtain ⟨f, -, added⟩ := bind_eq_ok_iff.mp added
    rwa [names_of_addField added]
  obtain ⟨before, there, s, mem, failed⟩ :=
    exists_of_foldlM_eq_error step (names_ne_nil_of_addStructure start) failed
  rcases bind_eq_error_iff.mp failed with field | ⟨f, -, failed⟩
  · exact ⟨s, mem, .inr (.inr ⟨v, field⟩)⟩
  · exact absurd failed (not_syntactic_of_addField there)

/-- A syntax error comes from a statement with a text that stops the reading. -/
theorem exists_stops_of_ofStatements_error {extraTypes : List Text} {statements : List Statement}
    (failed : ofStatements extraTypes statements = .error (.syntactic line column cause)) :
    ∃ s ∈ statements, s.text ≠ [] ∧ s.Stops (.syntactic line column cause) := by
  have nonempty : ∀ s ∈ statements.filter (fun s => !s.text.isEmpty),
      s ∈ statements ∧ s.text ≠ [] := by
    simp
  rcases bind_eq_error_iff.mp failed with cut | ⟨blocks, cut, failed⟩
  · obtain ⟨s, mem, stops⟩ := Block.exists_stops_of_ofNonempty_error cut
    exact ⟨s, (nonempty s mem).1, (nonempty s mem).2, stops⟩
  · obtain ⟨h, -, b, listed, failed⟩ :=
      exists_of_foldlM_eq_error (motive := fun _ => True) (fun _ _ _ _ _ _ => trivial) trivial
        failed
    obtain ⟨s, mem, stops⟩ := exists_stops_of_addBlock_error failed
    have within := nonempty s (Block.body_subset_of_ofNonempty cut listed mem)
    exact ⟨s, within.1, within.2, stops⟩

end Header

/-- A statement with a trimmed text that stops the reading is refused where the error says. -/
theorem Statement.Stops.refuses {s : Statement} {e : Error} (stops : s.Stops e)
    (trimmed : s.text.trim = s.text) (full : s.text ≠ []) : s.Refuses e := by
  rcases stops with opened | rfl | ⟨v, field⟩
  · exact refuses_of_openedTag_error trimmed full opened
  · exact ⟨s.column, _, s.text, rfl, ⟨rfl, rfl⟩, startsAt_self trimmed full⟩
  · exact refuses_of_field_error trimmed full field

namespace Header

open Statement Comment

variable {extraTypes : List Text} {t : Text} {line column : Nat} {cause : SyntaxError}

/-- A syntax error of a header text is reported at a character that is kept: on one of the physical
lines, not blank, and in no comment and no directive. The part of the statement that the error
speaks of starts with this character, and all that it shows stands behind it on the line. -/
theorem ofStatements_points
    (failed : ofStatements extraTypes (ofText t) = .error (.syntactic line column cause)) :
    ∃ source p c, 1 ≤ line ∧ line ≤ t.physicalLines.length ∧
      t.sourceLines[line - 1]? = some source ∧ column = p + 1 ∧ p < source.width ∧
      Kept (openAfter false (t.sourceLines.take (line - 1))) source p c ∧
      ∃ s ∈ ofText t, s.line = line ∧ ∃ rest, cause.Blames s column (c :: rest) ∧
        ∀ q d, Ink (c :: rest) q d →
          Kept (openAfter false (t.sourceLines.take (line - 1))) source (p + q) d := by
  obtain ⟨s, mem, full, stops⟩ := exists_stops_of_ofStatements_error failed
  obtain ⟨i, source, at_, number, kept, trimmed, -⟩ := exists_kept mem
  obtain ⟨_, _, part, same, blames, before, after, shape, rfl, c, rest, rfl, visible⟩ :=
    stops.refuses trimmed full
  cases same
  have below : ∀ q d, Ink (c :: rest) q d → ∃ p, p + 1 = s.column + before.width + q ∧
      Kept (openAfter false (t.sourceLines.take i)) source p d := by
    intro q d ink
    have within : s.text.Ink (before.width + q) d := by
      rw [shape, List.append_assoc, ink_append]
      exact .inr ⟨q, rfl, ink_append.mpr (.inl ink)⟩
    obtain ⟨p, place, -, keeps⟩ := kept _ d within
    exact ⟨p, by omega, keeps⟩
  obtain ⟨p, place, keeps⟩ := below 0 c (ink_cons.mpr (.inl ⟨rfl, rfl, visible⟩))
  have fits := keeps.code.has.add_size_le
  have positive := c.utf8Size_pos
  have bound : i < t.physicalLines.length := by
    obtain ⟨bound, -⟩ := List.getElem?_eq_some_iff.mp at_
    simpa [sourceLines] using bound
  rw [number, Nat.add_sub_cancel]
  refine ⟨source, p, c, by omega, by omega, at_, by omega, by omega, keeps, s, mem, number, rest,
    blames, fun q d ink => ?_⟩
  obtain ⟨r, place', keeps'⟩ := below q d ink
  obtain rfl : r = p + q := by omega
  exact keeps'

/-- An array without a length, behind characters that take more than one byte. -/
def blankLengthText : Text :=
  "struct evfs_a \x7b\n  /* größe */ union \x7b int x; int y[ /* n */ ]; \x7d;\n\x7d;\n".toList

theorem ofStatements_points_blankLengthText :
    ofStatements [] (ofText blankLengthText) =
        .error (.syntactic 2 37 (.malformed "int y[         ]".toList .arrayWithoutLength)) ∧
      ∃ source p c, 1 ≤ 2 ∧ 2 ≤ blankLengthText.physicalLines.length ∧
        blankLengthText.sourceLines[2 - 1]? = some source ∧ 37 = p + 1 ∧ p < source.width ∧
        Kept (openAfter false (blankLengthText.sourceLines.take (2 - 1))) source p c ∧
        ∃ s ∈ ofText blankLengthText, s.line = 2 ∧ ∃ rest,
          SyntaxError.Blames s 37 (c :: rest)
            (.malformed "int y[         ]".toList .arrayWithoutLength) ∧
          ∀ q d, Ink (c :: rest) q d →
            Kept (openAfter false (blankLengthText.sourceLines.take (2 - 1))) source (p + q) d := by
  have failed : ofStatements [] (ofText blankLengthText) =
      .error (.syntactic 2 37 (.malformed "int y[         ]".toList .arrayWithoutLength)) := by
    decide +kernel
  exact ⟨failed, ofStatements_points failed⟩

end Header

end FieldTables
