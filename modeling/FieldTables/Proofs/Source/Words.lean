import FieldTables.Proofs.Source.Composition
import FieldTables.Source.Checked

/-!
# Tokens between their bytes

The pieces of a statement stand between bytes that cut no character, and what is left in front of a
piece or behind the last one does too. So the tokens of a statement come with all their slices, and
so does the error for a part that is no token. A token that starts with a bracket is a group, which
ends with a bracket as well, so what stands between its brackets is a slice.
-/

namespace FieldTables

open Text

/-- A token as it is written. -/
def Token.word (t : Token) : Checked.Word := ⟨t.lexeme.text, t.column⟩

namespace Checked

variable {s : Statement} {v : Vocabulary} {d : Declaration} {t rest front : Text} {p : Piece}
  {start column : Nat} {l : Lexeme} {tokens : List Token}

theorem spans_nil (start : Nat) : spans start [] = [] := by
  rw [spans]
  rfl

theorem spans_of_first? (first : Piece.first? t = some (p, rest)) (start : Nat) :
    spans start t = (start, start + p.text.width) :: spans (start + p.text.width) rest := by
  rw [spans]
  split
  next found =>
    cases found.symm.trans first
    rfl
  next failed => cases failed.symm.trans first

theorem spans_of_none {c : Char} (failed : Piece.first? (c :: rest) = none) (start : Nat) :
    spans start (c :: rest) = spans (start + c.utf8Size) rest := by
  rw [spans]
  split
  next found => cases failed.symm.trans found
  next => rfl

/-- No piece stands before the end of what is unreadable. -/
theorem exists_spans_unreadable (t : Text) :
    ∃ after, t = Token.unreadable t ++ after ∧
      (after = [] ∨ ∃ p rest, Piece.first? after = some (p, rest)) ∧
      ∀ start, spans start t = spans (start + width (Token.unreadable t)) after := by
  induction t with
  | nil => exact ⟨[], rfl, .inl rfl, fun _ => rfl⟩
  | cons c rest ih =>
    rw [Token.unreadable]
    split
    next found =>
      obtain ⟨⟨p, rest'⟩, first⟩ := Option.isSome_iff_exists.mp found
      exact ⟨c :: rest, rfl, .inr ⟨p, rest', first⟩, fun _ => rfl⟩
    next missing =>
      obtain ⟨after, whole, ends, same⟩ := ih
      refine ⟨after, congrArg (c :: ·) whole, ends, fun start => ?_⟩
      rw [spans_of_none (Option.not_isSome_iff_eq_none.mp missing), same, width_cons,
        Nat.add_assoc]

/-- A part between bytes of a statement is reported at its column. -/
theorem unsupported_eq {stretch : Text} {stop : Nat}
    (slice : s.text.slice? start stop = some stretch) :
    unsupported s start stop =
      sure (.error (.syntactic s.line (s.column + start) (.unsupported stretch s.text))) := by
  rw [unsupported, slice]
  rfl

/-- What is read of a text as the rest of a statement. -/
def answer (s : Statement) (before : List Word) :
    Except (Nat × Text) (List Token) → Except Error (List Word)
  | .ok tokens => .ok (before ++ tokens.map Token.word)
  | .error (column, stretch) => .error (.syntactic s.line column (.unsupported stretch s.text))

/-- Blanks are no token. -/
theorem all_isBlank_iff (spelled : p.Spelled) :
    p.text.all isBlank = true ↔ ∃ blanks, p = .gap blanks := by
  cases p with
  | gap blanks => exact iff_of_true (List.all_eq_true.mpr spelled.2) ⟨blanks, rfl⟩
  | lexeme l =>
    obtain ⟨c, others, text, visible⟩ := (Piece.spelled_lexeme_iff.mp spelled).exists_cons
    refine iff_of_false (fun all => ?_) nofun
    have text : Piece.text (.lexeme l) = c :: others := text
    rw [text, List.all_cons, visible] at all
    cases all

/-- A part of a statement that is a piece is a token unless it is blank. -/
theorem wordsAt_cons {places : List (Nat × Nat)} (before : List Word)
    (slice : s.text.slice? start (start + p.text.width) = some p.text) :
    wordsAt s start before ((start, start + p.text.width) :: places) =
      if p.text.all isBlank then wordsAt s (start + p.text.width) before places
      else wordsAt s (start + p.text.width) (before ++ [⟨p.text, s.column + start⟩]) places := by
  rw [wordsAt, if_neg (Nat.lt_irrefl start), slice]
  rfl

/-- Where no piece starts, the stretch up to the next piece or to the end is reported. -/
theorem wordsAt_unreadable (whole : s.text = front ++ t) (failed : Piece.first? t = none)
    (full : t ≠ []) (before : List Word) :
    wordsAt s front.width before (spans front.width t) =
      sure (.error (.syntactic s.line (s.column + front.width)
        (.unsupported (Token.unreadable t) s.text))) := by
  obtain ⟨after, split, ends, places⟩ := exists_spans_unreadable t
  have wide : 0 < width (Token.unreadable t) := by
    obtain ⟨c, others, rfl⟩ := List.exists_cons_of_ne_nil full
    have positive := c.utf8Size_pos
    rw [Token.unreadable, failed, if_neg (by simp), width_cons]
    omega
  generalize Token.unreadable t = stretch at split places wide ⊢
  rw [split] at whole
  rw [places]
  rcases ends with rfl | ⟨p, rest, first⟩
  · rw [List.append_nil] at whole
    have slice : s.text.slice? front.width s.text.width = some stretch := by
      rw [whole]
      exact slice?_back front stretch
    have behind : front.width ≠ s.text.width := by
      rw [whole, width_append]
      omega
    rw [spans_nil, wordsAt, if_pos behind, unsupported_eq slice]
  · have slice : s.text.slice? front.width (front.width + stretch.width) = some stretch := by
      rw [whole]
      exact slice?_middle front stretch after
    rw [spans_of_first? first, wordsAt, if_pos (by omega), unsupported_eq slice]

/-- The rest of a statement gives the tokens that are read of it, or their error. -/
theorem wordsAt_eq (whole : s.text = front ++ t) (same : column = s.column + front.width)
    (before : List Word) :
    wordsAt s front.width before (spans front.width t) =
      sure (answer s before (Token.read column t)) := by
  fun_induction Token.read column t generalizing front before with
  | case1 column t failed empty =>
    obtain rfl := List.isEmpty_iff.mp empty
    have ended : front.width = s.text.width := by rw [whole, List.append_nil]
    rw [spans_nil, wordsAt, if_neg (not_not.mpr ended), answer, List.map_nil, List.append_nil]
    rfl
  | case2 column t failed full =>
    rw [wordsAt_unreadable whole failed (full <| List.isEmpty_iff.mpr ·), same]
    rfl
  | case3 column t p rest first ih =>
    have text := Piece.first?_append first
    rw [← text] at whole
    have slice : s.text.slice? front.width (front.width + p.text.width) = some p.text := by
      rw [whole]
      exact slice?_middle front p.text rest
    have next : s.text = (front ++ p.text) ++ rest := by rw [whole, List.append_assoc]
    have place : column + p.text.width = s.column + width (front ++ p.text) := by
      rw [same, width_append, Nat.add_assoc]
    have later := fun before => ih next place before
    rw [width_append] at later
    rw [spans_of_first? first, wordsAt_cons before slice]
    cases p with
    | gap blanks =>
      rw [if_pos ((all_isBlank_iff (Piece.spelled_of_first? first)).mpr ⟨blanks, rfl⟩), later]
      cases Token.read (column + width (Piece.text (.gap blanks))) rest <;> rfl
    | lexeme l =>
      have visible : ¬(Piece.lexeme l).text.all isBlank = true := fun blank => by
        obtain ⟨blanks, gap⟩ := (all_isBlank_iff (Piece.spelled_of_first? first)).mp blank
        cases gap
      rw [if_neg visible, later, ← same]
      cases Token.read (column + width (Piece.text (.lexeme l))) rest with
      | error e => rfl
      | ok tokens =>
        rw [answer, List.append_assoc]
        rfl

/-- A statement gives its tokens as they are written, or the error for what is no token. -/
theorem words_eq (s : Statement) :
    words s = sure (s.tokens.map (List.map Token.word)) := by
  have whole : s.text = [] ++ s.text := rfl
  have all : words s = sure (answer s [] (Token.read s.column s.text)) := wordsAt_eq whole rfl []
  rw [all, Statement.tokens]
  cases Token.read s.column s.text <;> rfl

/-- Only the word is written like the keyword. -/
theorem text_eq_structKeyword_iff : l.text = structKeyword ↔ l = .word structKeyword := by
  cases l with
  | word name => simp [Lexeme.text]
  | star => exact iff_of_false (by decide) (by simp)
  | brace => exact iff_of_false (by decide) (by simp)
  | group inside => exact iff_of_false (fun same => by cases same) (by simp)

/-- Only the brace is written like the brace. -/
theorem text_eq_brace_iff (alone : l.Ends []) : l.text = ['{'] ↔ l = .brace := by
  cases l with
  | word name =>
    refine iff_of_false (fun same => ?_) nofun
    obtain ⟨identifier, -⟩ := alone
    rw [show name = ['{'] from same] at identifier
    cases identifier
  | star => exact iff_of_false (by decide) nofun
  | brace => exact iff_of_true rfl rfl
  | group inside => exact iff_of_false (fun same => by cases same) nofun

/-- A word starts with a letter, and no other token does. -/
theorem startsName_text_iff (alone : l.Ends []) :
    startsName l.text = true ↔ ∃ name, l = .word name := by
  cases l with
  | word name =>
    refine iff_of_true ?_ ⟨name, rfl⟩
    obtain ⟨identifier, -⟩ := alone
    cases name with
    | nil => cases identifier
    | cons c rest => exact (Bool.and_eq_true_iff.mp identifier).1
  | star => exact iff_of_false (by decide) nofun
  | brace => exact iff_of_false (by decide) nofun
  | group inside => exact iff_of_false (fun letter => by cases letter) nofun

/-- What stands between the brackets of a group is a slice. -/
theorem slice?_group (inside : Text) :
    minus? (Lexeme.text (.group inside)).width 1 = some (1 + inside.width) ∧
      (Lexeme.text (.group inside)).slice? 1 (1 + inside.width) = some inside := by
  have bracket : Char.utf8Size '[' = 1 ∧ Char.utf8Size ']' = 1 := ⟨rfl, rfl⟩
  constructor
  · have wide : (Lexeme.text (.group inside)).width = 1 + inside.width + 1 := by
      simp only [Lexeme.text, List.cons_append, width_cons, width_append, width_nil, bracket]
      omega
    rw [wide]
    rfl
  · exact slice?_middle ['['] inside [']']

/-- What is there is taken. -/
theorem bind_some {ε α β : Type} (a : α) (next : α → ExceptT ε Option β) :
    ((liftM (some a) : ExceptT ε Option α) >>= next) = next a :=
  rfl

/-- A token is told by what it is written as, and a group gives what stands between its brackets. -/
theorem read_word_cons {token : Token} {rest : List Word} (alone : token.lexeme.Ends []) :
    read v d (token.word :: rest) =
      if d.length.isSome then throw (token.column, .afterArray)
      else if token.lexeme = .word structKeyword then
        match rest with
        | tag :: others =>
          if startsName tag.text then read v (d.addStructure tag.text) others
          else throw (token.column, .missingTag)
        | [] => throw (token.column, .missingTag)
      else if v.structures.contains token.lexeme.text && d.inner.isNone && d.names.isEmpty then
        read v (d.addStructure token.lexeme.text) rest
      else if v.types.contains token.lexeme.text then read v (d.addPart token.lexeme.text) rest
      else match token.lexeme with
        | .word name => read v { d with names := d.names ++ [(name, token.column)] } rest
        | .star => read v { d.addPart ['*'] with pointer := true } rest
        | .group inside =>
          if d.names.isEmpty then throw (token.column, .arrayWithoutName)
          else if inside.trim.isEmpty then throw (token.column, .arrayWithoutLength)
          else read v { d with length := some inside.trim } rest
        | .brace => throw (token.column, .unexpected token.lexeme.text) := by
  obtain ⟨l, column⟩ := token
  rw [read.eq_def]
  simp only [Token.word, text_eq_structKeyword_iff]
  cases l with
  | word name =>
    have letter := (startsName_text_iff alone).mpr ⟨name, rfl⟩
    have star : Lexeme.text (.word name) ≠ ['*'] := fun same => by
      rw [same] at letter
      cases letter
    have bracket : (Lexeme.text (.word name)).head? ≠ some '[' := fun same => by
      rw [startsName, same] at letter
      cases letter
    simp only [star, bracket, letter, if_true, if_false]
    rfl
  | star => rfl
  | brace => rfl
  | group inside =>
    have star : Lexeme.text (.group inside) ≠ ['*'] := fun same => by cases same
    have bracket : (Lexeme.text (.group inside)).head? = some '[' := rfl
    obtain ⟨last, slice⟩ := slice?_group inside
    cases rest <;> simp only [star, bracket, last, bind_some, slice, if_true, if_false]

/-- The tokens of a statement are read as they are written. -/
theorem read_eq (alone : ∀ t ∈ tokens, t.lexeme.Ends []) :
    read v d (tokens.map Token.word) = sure (Declaration.read v d tokens) := by
  fun_induction Declaration.read v d tokens with
  | case1 => rfl
  | case2 d t rest full =>
    rw [List.map_cons, read_word_cons (alone t List.mem_cons_self), if_pos full]
    rfl
  | case3 d t full keyword tag column others ih =>
    obtain ⟨here, below⟩ := List.forall_mem_cons.mp alone
    obtain ⟨word, later⟩ := List.forall_mem_cons.mp below
    rw [List.map_cons, read_word_cons here, if_neg full, if_pos keyword, List.map_cons]
    exact (if_pos ((startsName_text_iff word).mpr ⟨tag, rfl⟩)).trans (ih later)
  | case4 d t rest full keyword other =>
    obtain ⟨here, below⟩ := List.forall_mem_cons.mp alone
    rw [List.map_cons, read_word_cons here, if_neg full, if_pos keyword]
    cases rest with
    | nil => rfl
    | cons tag others =>
      have letter : ¬startsName tag.lexeme.text = true := fun letter => by
        obtain ⟨name, word⟩ := (startsName_text_iff (below tag List.mem_cons_self)).mp letter
        exact other name tag.column others (by rw [← word])
      exact if_neg letter
  | case5 d t rest full keyword tagged ih =>
    obtain ⟨here, below⟩ := List.forall_mem_cons.mp alone
    rw [List.map_cons, read_word_cons here, if_neg full, if_neg keyword, if_pos tagged]
    exact ih below
  | case6 d t rest full keyword tagged typed ih =>
    obtain ⟨here, below⟩ := List.forall_mem_cons.mp alone
    rw [List.map_cons, read_word_cons here, if_neg full, if_neg keyword, if_neg tagged,
      if_pos typed]
    exact ih below
  | case7 d t rest full keyword tagged typed name word ih =>
    obtain ⟨here, below⟩ := List.forall_mem_cons.mp alone
    rw [List.map_cons, read_word_cons here, if_neg full, if_neg keyword, if_neg tagged,
      if_neg typed, word]
    exact ih below
  | case8 d t rest full keyword tagged typed star ih =>
    obtain ⟨here, below⟩ := List.forall_mem_cons.mp alone
    rw [List.map_cons, read_word_cons here, if_neg full, if_neg keyword, if_neg tagged,
      if_neg typed, star]
    exact ih below
  | case9 d t rest full keyword tagged typed inside group bare =>
    rw [List.map_cons, read_word_cons (alone t List.mem_cons_self), if_neg full, if_neg keyword,
      if_neg tagged, if_neg typed, group]
    exact if_pos bare
  | case10 d t rest full keyword tagged typed inside group bare blank =>
    rw [List.map_cons, read_word_cons (alone t List.mem_cons_self), if_neg full, if_neg keyword,
      if_neg tagged, if_neg typed, group]
    exact (if_neg bare).trans (if_pos blank)
  | case11 d t rest full keyword tagged typed inside group bare blank ih =>
    obtain ⟨here, below⟩ := List.forall_mem_cons.mp alone
    rw [List.map_cons, read_word_cons here, if_neg full, if_neg keyword, if_neg tagged,
      if_neg typed, group]
    exact (if_neg bare).trans ((if_neg blank).trans (ih below))
  | case12 d t rest full keyword tagged typed brace =>
    rw [List.map_cons, read_word_cons (alone t List.mem_cons_self), if_neg full, if_neg keyword,
      if_neg tagged, if_neg typed, brace]
    rfl

end Checked

end FieldTables
