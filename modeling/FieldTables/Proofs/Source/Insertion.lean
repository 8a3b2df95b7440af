import FieldTables.Proofs.Source.Filler
import FieldTables.Proofs.Source.Placement
import FieldTables.Proofs.Source.Widening
import FieldTables.Proofs.Text.Line

/-!
# Fillers in a header text

A filler can be put into a header text wherever no comment, bracketed group, identifier, line end or
directive is cut in two. Its line is stripped to the same text with blanks more, so its statements
are read as before and every other line is the same. So the text still gives the same header.
-/

namespace FieldTables

open Outcome Text Comment

namespace Text

variable {u v : Text}

/-- Whether a block comment is open where the last line of a text starts. -/
def openBefore (u : Text) : Bool := openAfter false u.endedLines.sourceLines

/-- Where reading stands at the end of a text. -/
def reading (u : Text) : State := (State.start u.openBefore).after u.lastLine

/-- A position of a header text that cuts in two no comment and no delimiter of one, no identifier,
no bracketed group, no directive and no line end. -/
structure Fillable (u v : Text) : Prop where
  comment : u.reading.Free v.firstLine
  seam : Loose (Comment.shown (.start u.openBefore) u.lastLine) (Comment.shown .code v.firstLine)
  directive : ¬Statement.Directive (Comment.shown (.start u.openBefore) (u.lastLine ++ v.firstLine))
  lineEnd : u.getLast? = some '\r' → v.head? ≠ some '\n'

instance : Decidable (Fillable u v) :=
  decidable_of_iff (u.reading.Free v.firstLine ∧
      Loose (Comment.shown (.start u.openBefore) u.lastLine) (Comment.shown .code v.firstLine) ∧
      ¬Statement.Directive (Comment.shown (.start u.openBefore) (u.lastLine ++ v.firstLine)) ∧
      (u.getLast? = some '\r' → v.head? ≠ some '\n'))
    ⟨fun ⟨comment, seam, directive, lineEnd⟩ => ⟨comment, seam, directive, lineEnd⟩,
      fun ⟨comment, seam, directive, lineEnd⟩ => ⟨comment, seam, directive, lineEnd⟩⟩

/-- The last line so far and the rest of it are part of a text. -/
theorem lastLine_append_firstLine_isInfix (u v : Text) : u.lastLine ++ v.firstLine <:+: u ++ v := by
  obtain ⟨rest, behind⟩ := firstLine_prefix v
  refine ⟨u.endedLines, rest, ?_⟩
  rw [List.append_assoc, List.append_assoc, behind, ← List.append_assoc, endedLines_append_lastLine]

end Text

namespace Filler

variable {gap : Text}

/-- A filler is part of a line. -/
theorem oneLine (filler : Filler gap) : gap.OneLine := by
  cases filler with
  | blanks _ feed => exact feed
  | comment oneLine =>
    have opens : OneLine "/*".toList := by decide
    exact opens.append (oneLine.append (by decide))

/-- A filler is no first half of a line end. -/
theorem getLast?_ne (filler : Filler gap) : gap.getLast? ≠ some '\r' := by
  cases filler with
  | blanks _ _ carriage => exact fun last => carriage (List.mem_of_getLast? last)
  | @comment inside =>
    have last : ("/*".toList ++ (inside ++ "*/".toList)).getLast? = some '/' := by
      rw [← List.append_assoc, List.getLast?_append_of_ne_nil _ (by decide)]
      rfl
    rw [last]
    decide

end Filler

namespace Statement

variable {inside : Bool} {a b gap line : Text} {n : Nat} {lines : List Text}

/-- The statements of a line and of those behind it. -/
theorem ofLines_cons : ofLines inside n (line :: lines) =
    ofLine n (strip inside line.withoutMarkers).1 ++
      ofLines (strip inside line.withoutMarkers).2 (n + 1) lines := rfl

/-- The statements of lines are those of the first of them and those of the others. -/
theorem ofLines_append (inside : Bool) (n : Nat) (lines others : List Text) :
    ofLines inside n (lines ++ others) = ofLines inside n lines ++
      ofLines (openAfter inside (lines.map withoutMarkers)) (n + lines.length) others := by
  induction lines generalizing inside n with
  | nil => rfl
  | cons first rest ih =>
    rw [List.cons_append, ofLines_cons, ofLines_cons, ih, (strip_eq inside first.withoutMarkers).2,
      List.append_assoc, List.length_cons, Nat.add_assoc, Nat.add_comm 1]
    rfl

/-- A filler at a free and loose position of a line with lexemes only leaves the statements of the
line alike, and opens and closes no comment for the next line. -/
theorem alike_strip_insert (filler : Filler gap) (free : ((State.start inside).after a).Free b)
    (loose : Loose (shown (.start inside) a) (shown .code b))
    (plain : ¬Directive (shown (.start inside) (a ++ b)))
    (readable : ∀ d ∈ ofLine n (strip inside (a ++ b)).1, ∃ ls, Lexed d.text ls) :
    List.Forall₂ Alike (ofLine n (strip inside (a ++ b)).1)
        (ofLine n (strip inside (a ++ (gap ++ b))).1) ∧
      (strip inside (a ++ (gap ++ b))).2 = (strip inside (a ++ b)).2 := by
  obtain ⟨m, shows⟩ := (strip_eq false b).1
  obtain ⟨k, shows'⟩ := (strip_eq inside (a ++ b)).1
  rw [shows', directive_append_spaces] at plain
  have halves := strip_append free
  rw [halves] at plain readable ⊢
  have loose : Loose (shown (.start inside) a) (strip false b).1 := by
    have behind : shown .code b = (strip false b).1 ++ spaces m := shows
    rw [behind] at loose
    refine loose.mono (List.suffix_refl _) (List.prefix_append ..) ?_
    cases (strip false b).1 with
    | nil => exact .inl rfl
    | cons c rest => exact .inr rfl
  -- A slash in front of the position would be no lexeme.
  have code : (State.start inside).after a = .code := by
    cases state : (State.start inside).after a with
    | code => rfl
    | slash =>
      have nonempty : a ≠ [] := by
        rintro rfl
        cases inside <;> cases state
      obtain ⟨front, last⟩ := exists_shown_eq_of_slash state nonempty
      rw [last] at loose plain readable
      rw [List.append_assoc, List.singleton_append] at plain readable
      exact absurd (inGroup_of_slash plain readable) loose.group
    | block => rw [state] at free; cases free.outside
    | star => rw [state] at free; cases free.outside
    | line => rw [state] at free; cases free.outside
  obtain ⟨blanks, blank, wider⟩ := exists_strip_insert (b := b) filler code
  rw [wider]
  exact ⟨alike_ofLine_insert loose blank plain readable, rfl⟩

end Statement

namespace Header

open Statement

variable {extraTypes : List Text} {u v gap : Text} {h : Header}

/-- Empty statements at the end say nothing. -/
private theorem ofStatements_append_of_empty {statements others : List Statement}
    (empty : ∀ s ∈ others, s.text = []) :
    ofStatements extraTypes (statements ++ others) = ofStatements extraTypes statements := by
  have empty : others.filter (fun s => !s.text.isEmpty) = [] :=
    List.filter_eq_nil_iff.mpr fun s mem => by simp [empty s mem]
  rw [ofStatements, Block.ofStatements, List.filter_append, empty, List.append_nil]
  rfl

/-- A header is read from the lines before a position, from the line that goes over it and from the
lines behind. -/
theorem ofStatements_ofText_append (lineEnd : u.getLast? = some '\r' → v.head? ≠ some '\n') :
    ofStatements extraTypes (ofText (u ++ v)) = ofStatements extraTypes
      (ofLines false 1 u.endedLines.physicalLines ++
        ofLines u.openBefore (1 + u.endedLines.physicalLines.length)
          ((u.lastLine ++ v.firstLine) :: v.physicalLines.tail)) := by
  have ended : physicalLines (u ++ v) =
      u.endedLines.physicalLines ++ physicalLines (u.lastLine ++ v) := by
    rw [← physicalLines_append fun c last => eq_of_getLast?_endedLines last, ← List.append_assoc,
      endedLines_append_lastLine]
  rw [ofText, ended, ofLines_append]
  by_cases empty : u.lastLine ++ v = []
  · -- Behind the last line feed there is no line, and an empty line says nothing.
    obtain ⟨front, rfl⟩ := List.append_eq_nil_iff.mp empty
    rw [front, ofStatements_append_of_empty, ofStatements_append_of_empty]
    · intro s mem
      have text : ∀ (inside : Bool) (n : Nat), ∀ s ∈ ofLines inside n [[]], s.text = [] := by
        intro inside n s mem
        cases inside <;> exact List.mem_singleton.mp mem ▸ rfl
      exact text _ _ s mem
    · exact List.forall_mem_nil _
  · rw [physicalLines_append_of_oneLine (oneLine_lastLine u) empty]
    · rfl
    · intro last
      refine lineEnd ?_
      rw [← endedLines_append_lastLine u, List.getLast?_append, last]
      rfl

/-- A header text with a filler more still gives the same header, unless the filler cuts a comment,
an identifier, a bracketed group, a directive or a line end in two. -/
theorem ofStatements_insert (unmarked : (u ++ v).Unmarked) (fillable : Fillable u v)
    (filler : Filler gap) (ok : ofStatements extraTypes (ofText (u ++ v)) = .ok h) :
    ofStatements extraTypes (ofText (u ++ (gap ++ v))) = .ok h := by
  obtain ⟨free, loose, plain, lineEnd⟩ := fillable
  have lineEnd' : (u ++ gap).getLast? = some '\r' → v.head? ≠ some '\n' := by
    intro last
    rw [List.getLast?_append] at last
    cases final : gap.getLast? with
    | none => rw [final] at last; exact lineEnd last
    | some c => rw [final] at last; exact absurd (final.trans last) filler.getLast?_ne
  obtain ⟨ended, goesOn⟩ := append_of_oneLine (s := u) filler.oneLine
  have wider : (u.lastLine ++ (gap ++ v.firstLine)).Unmarked := by
    have within := lastLine_append_firstLine_isInfix (u ++ gap) v
    rw [goesOn, List.append_assoc, List.append_assoc] at within
    exact (filler.unmarked unmarked).of_isInfix within
  have line := unmarked.of_isInfix (lastLine_append_firstLine_isInfix u v)
  rw [ofStatements_ofText_append lineEnd, ofLines_cons, line.withoutMarkers] at ok
  have readable := exists_lexed_of_ofStatements ok
  rw [List.forall_mem_append, List.forall_mem_append] at readable
  obtain ⟨alike, carries⟩ := alike_strip_insert filler free loose plain readable.2.1
  rw [← List.append_assoc, ofStatements_ofText_append lineEnd', openBefore, ended, goesOn,
    List.append_assoc, ofLines_cons, wider.withoutMarkers, ← openBefore, carries]
  have refl : ∀ statements : List Statement, List.Forall₂ Alike statements statements := fun _ =>
    List.forall₂_same.mpr fun s _ => .refl s
  exact ofStatements_of_alike (List.rel_append (refl _) (List.rel_append alike (refl _))) ok

/-- A header up to the word of a union opening, behind a comment over two lines and a group. -/
def unionText : Text := "struct evfs_a \x7b /* of\n two */ int n[4];union".toList

/-- The header from the brace of the union opening on. -/
def membersText : Text := "\x7b int x; char*p; \x7d; \x7d;\n".toList

/-- A comment that holds what would be an opening outside comments. -/
def braceComment : Text := "/*".toList ++ (" one * / \x7b; // ".toList ++ "*/".toList)

theorem ofStatements_insert_membersText :
    (unionText ++ membersText).Unmarked ∧ Fillable unionText membersText ∧ Filler braceComment ∧
      ∃ h, ofStatements [] (ofText (unionText ++ membersText)) = .ok h ∧
        h.entries.map (fun s => s.fields.entries.map fun f => (f.name, f.line)) =
          [[("n".toList, 2), ("x".toList, 2), ("p".toList, 2)]] ∧
        ofStatements [] (ofText (unionText ++ (braceComment ++ membersText))) = .ok h := by
  have unmarked : (unionText ++ membersText).Unmarked := by decide +kernel
  have fillable : Fillable unionText membersText := by decide +kernel
  have filler : Filler braceComment := .comment (by decide) (by decide) (by decide)
  have fields : (ofStatements [] (ofText (unionText ++ membersText))).toOption.map (fun h =>
      h.entries.map fun s => s.fields.entries.map fun f => (f.name, f.line)) =
        some [[("n".toList, 2), ("x".toList, 2), ("p".toList, 2)]] := by decide +kernel
  obtain ⟨h, ok, look⟩ := exists_of_map_toOption fields
  exact ⟨unmarked, fillable, filler, h, ok, look, ofStatements_insert unmarked fillable filler ok⟩

end Header

end FieldTables
