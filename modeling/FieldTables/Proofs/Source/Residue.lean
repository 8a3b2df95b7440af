import FieldTables.Proofs.Source.Pointing
import FieldTables.Proofs.Text.NestedMark

/-!
# Markers in statements

Byte-order marks are taken out first and split marks in one pass behind that, line by line. No
statement shows a byte-order mark. It shows a split mark exactly where others stood within one on
its line, outside comments and directives; what is blanked out, cut and trimmed later makes none.
-/

namespace FieldTables

open Text Comment Wrapper

/-- Something holds of each character of a split mark, at its byte from a byte on. -/
structure Text.MarkedBy (found : Nat → Char → Prop) (p : Nat) : Prop where
  first : found p '\u00ef'
  second : found (p + 2) '\u00bb'
  third : found (p + 4) '\u00bf'

theorem Text.MarkedBy.imp {found other : Nat → Char → Prop} {p : Nat} (marked : MarkedBy found p)
    (each : ∀ q, ∀ c ∈ splitMark, found q c → other q c) : MarkedBy other p where
  first := each _ _ (by decide) marked.first
  second := each _ _ (by decide) marked.second
  third := each _ _ (by decide) marked.third

namespace Statement

variable {inside : Bool} {t line word before after : Text} {n p offset column : Nat} {c : Char}
  {s : Statement}

/-- No character of a split mark is blank, is part of a union opening or cuts a line. -/
private theorem plain_of_mem_splitMark (mem : c ∈ splitMark) :
    isBlank c = false ∧ c ∉ keyword ∧ c ≠ '{' ∧ c ≠ '}' ∧ c ≠ ';' := by
  simp only [splitMark, List.mem_cons, List.not_mem_nil, or_false] at mem
  rcases mem with rfl | rfl | rfl <;> decide

/-- What follows the first character of a split mark when the others are found at their bytes. -/
private theorem exists_eq_of_has
    (second : Has (before ++ '\u00ef' :: after) (before.width + 2) '\u00bb')
    (third : Has (before ++ '\u00ef' :: after) (before.width + 4) '\u00bf') :
    ∃ rest, after = '\u00bb' :: '\u00bf' :: rest := by
  obtain ⟨rest, rfl⟩ := List.head?_eq_some_iff.mp (head?_of_has second)
  have shape : before ++ '\u00ef' :: '\u00bb' :: rest =
      (before ++ ['\u00ef']) ++ '\u00bb' :: rest := by simp
  have size : before.width + 4 =
      width (before ++ ['\u00ef']) + Char.utf8Size '\u00bb' := by
    rw [width_append]
    rfl
  rw [shape, size] at third
  obtain ⟨rest, rfl⟩ := List.head?_eq_some_iff.mp (head?_of_has third)
  exact ⟨rest, rfl⟩

/-- A split mark stands in a piece where the piece shows its characters. -/
theorem startsAt_splitMark_iff :
    t.StartsAt offset splitMark column ↔ MarkedBy (PieceShows (offset, t)) column := by
  constructor
  · rintro ⟨before, after, rfl, rfl, -⟩
    refine ⟨⟨_, rfl, ⟨before, '\u00bb' :: '\u00bf' :: after, ?_, rfl⟩, by decide⟩,
      ⟨before.width + 2, rfl, ⟨before ++ ['\u00ef'], '\u00bf' :: after, ?_, ?_⟩, by decide⟩,
      ⟨before.width + 4, rfl, ⟨before ++ ['\u00ef', '\u00bb'], after, ?_, ?_⟩, by decide⟩⟩
    · simp [splitMark]
    · simp [splitMark]
    · rw [width_append]
      rfl
    · simp [splitMark]
    · rw [width_append]
      rfl
  · rintro ⟨⟨_, rfl, ⟨before, rest, rfl, rfl⟩, -⟩, ⟨q, place, second, -⟩, ⟨r, place', third, -⟩⟩
    obtain rfl : before.width + 2 = q := by dsimp only at place; omega
    obtain rfl : before.width + 4 = r := by dsimp only at place'; omega
    obtain ⟨after, rfl⟩ := exists_eq_of_has second third
    exact ⟨before, after, by simp [splitMark], rfl, _, _, rfl, by decide⟩

/-- A statement shows a split mark where it shows its characters. -/
theorem startsAt_text_iff :
    s.text.StartsAt s.column splitMark (p + 1) ↔ MarkedBy s.Shows p := by
  rw [startsAt_splitMark_iff]
  -- Both sides speak of the same bytes, counted from zero and from one.
  exact ⟨fun ⟨first, second, third⟩ => ⟨first, second, third⟩,
    fun ⟨first, second, third⟩ => ⟨first, second, third⟩⟩

/-- A split mark stands outside comments where its first character does. -/
theorem markedBy_code_iff : MarkedBy (Code (.start inside) line) p ↔
    line.StartsAt 0 splitMark p ∧ Code (.start inside) line p '\u00ef' := by
  have shows : ∀ {q c}, PieceShows (0, line) q c ↔ line.Ink q c := by simp [PieceShows]
  constructor
  · intro marked
    refine ⟨startsAt_splitMark_iff.mpr (marked.imp fun q c mem code => ?_), marked.first⟩
    exact shows.mpr ⟨code.has, (plain_of_mem_splitMark mem).1⟩
  · rintro ⟨starts, code⟩
    obtain ⟨-, second, third⟩ := startsAt_splitMark_iff.mp starts
    have middle : Code (.start inside) line (p + 2) '\u00bb' :=
      code.further (by decide) (shows.mp second).1 (by decide)
    exact ⟨code, middle, middle.further (by decide) (shows.mp third).1 (by decide)⟩

/-- What cuts nothing at the start of a line is the start of its first piece. -/
private theorem exists_pieces_append (uncut : ∀ c ∈ word, c ≠ '{' ∧ c ≠ ';') (offset : Nat)
    (t : Text) : ∃ rest others, pieces offset (word ++ t) = (offset, word ++ rest) :: others := by
  induction word generalizing offset with
  | nil => exact exists_pieces_eq offset t
  | cons c word ih =>
    obtain ⟨⟨opening, semicolon⟩, later⟩ := List.forall_mem_cons.mp uncut
    obtain ⟨first, others, split, step⟩ :=
      exists_pieces_cons offset (word ++ t) opening semicolon
    obtain ⟨rest, _, same⟩ := ih later (offset + c.utf8Size)
    rw [split] at same
    cases same
    exact ⟨rest, others, step⟩

/-- A stretch that cuts nothing stands in one piece of its line. -/
theorem exists_piece_startsAt (uncut : ∀ c ∈ word, c ≠ '{' ∧ c ≠ ';')
    (starts : t.StartsAt offset word column) :
    ∃ piece ∈ pieces offset t, piece.2.StartsAt piece.1 word column := by
  obtain ⟨before, after, rfl, rfl, first⟩ := starts
  induction before generalizing offset with
  | nil =>
    obtain ⟨rest, others, split⟩ := exists_pieces_append uncut offset after
    refine ⟨(offset, word ++ rest), ?_, [], rest, rfl, rfl, first⟩
    rw [List.nil_append, split]
    exact List.mem_cons_self
  | cons d before ih =>
    have shift : offset + width (d :: before) = offset + d.utf8Size + width before := by
      rw [width_cons, Nat.add_assoc]
    obtain ⟨piece, mem, starts⟩ := @ih (offset + d.utf8Size)
    rw [← shift] at starts
    rw [List.cons_append, List.cons_append]
    by_cases opening : d = '{'
    · subst opening
      exact ⟨piece, List.mem_cons_of_mem _ mem, starts⟩
    by_cases semicolon : d = ';'
    · subst semicolon
      exact ⟨piece, List.mem_cons_of_mem _ mem, starts⟩
    obtain ⟨front, others, split, step⟩ :=
      exists_pieces_cons offset (before ++ word ++ after) opening semicolon
    rw [step]
    rw [split] at mem
    rcases List.mem_cons.mp mem with rfl | mem
    · exact ⟨(offset, d :: front), List.mem_cons_self, starts.behind (s := [d])⟩
    · exact ⟨piece, List.mem_cons_of_mem _ mem, starts⟩

/-- Blanking out what is blanked leaves a split mark that stands outside comments. -/
private theorem markedBy_blank (marked : MarkedBy (Code (.start inside) line) p) :
    MarkedBy (PieceShows (0, blank (strip inside line).1)) p := by
  refine marked.imp fun q c mem code => ⟨q, (Nat.zero_add q).symm, ?_⟩
  obtain ⟨visible, letter, brace, -⟩ := plain_of_mem_splitMark mem
  have ink := ink_strip_iff.mpr ⟨code, visible⟩
  refine ink_blank_iff.mpr ⟨ink, fun inside => ?_⟩
  rcases inside.mem ink.1 with word | blank | same
  · exact letter word
  · cases visible.symm.trans blank
  · exact brace same

/-- The statements of a line show a split mark where the line has one outside comments, unless it is
a directive. -/
theorem exists_startsAt_strip_iff :
    (∃ s ∈ ofLine n (strip inside line).1, s.text.StartsAt s.column splitMark (p + 1)) ↔
      (line.StartsAt 0 splitMark p ∧ Code (.start inside) line p '\u00ef') ∧
        ¬Directive (shown (.start inside) line) := by
  simp only [startsAt_text_iff, ← markedBy_code_iff]
  constructor
  · rintro ⟨s, mem, marked⟩
    have kept : MarkedBy (Kept inside line) p :=
      marked.imp fun q c _ shows => shows_strip_iff.mp ⟨s, mem, shows⟩
    exact ⟨kept.imp fun q c _ keeps => keeps.code, kept.first.directive⟩
  · rintro ⟨code, plain⟩
    rw [← directive_strip_iff] at plain
    have uncut : ∀ c ∈ splitMark, c ≠ '{' ∧ c ≠ ';' := fun c mem =>
      let ⟨_, _, opening, _, semicolon⟩ := plain_of_mem_splitMark mem
      ⟨opening, semicolon⟩
    obtain ⟨piece, mem, starts⟩ :=
      exists_piece_startsAt uncut (startsAt_splitMark_iff.mpr (markedBy_blank code))
    rcases ofLine_eq n (strip inside line).1 with ⟨is, -⟩ | ⟨-, eq⟩
    · exact absurd is plain
    rw [eq]
    refine ⟨ofPiece n piece, List.mem_map_of_mem mem, ?_⟩
    refine (startsAt_splitMark_iff.mp starts).imp fun q c mem shows => ?_
    exact shows_ofPiece_iff.mpr ⟨shows, (plain_of_mem_splitMark mem).2.2.2.1⟩

/-- A line, read inside a block comment or not, leaves a split mark at a byte: one with others in it
stands there, in no comment and on no directive. -/
structure LeavesMark (inside : Bool) (raw : Text) (p : Nat) : Prop where
  nested : raw.NestsAt p
  code : Code (.start inside) raw.withoutMarkers p '\u00ef'
  directive : ¬Directive (shown (.start inside) raw.withoutMarkers)

/-- The statements of a line show the split marks that the line leaves. -/
theorem leavesMark_iff {raw : Text} : LeavesMark inside raw p ↔
    ∃ s ∈ ofLine n (strip inside raw.withoutMarkers).1,
      s.text.StartsAt s.column splitMark (p + 1) := by
  have nests : raw.withoutMarkers.StartsAt 0 splitMark p ↔ raw.NestsAt p := by
    rw [nestsAt_iff]
    constructor
    · rintro ⟨before, after, split, rfl, -⟩
      exact ⟨before, after, by rw [split, List.append_assoc], (Nat.zero_add _).symm⟩
    · rintro ⟨before, after, split, rfl⟩
      exact ⟨before, after, by rw [split, List.append_assoc], (Nat.zero_add _).symm, _, _, rfl,
        by decide⟩
  rw [exists_startsAt_strip_iff, nests]
  exact ⟨fun ⟨nested, code, directive⟩ => ⟨⟨nested, code⟩, directive⟩,
    fun ⟨⟨nested, code⟩, directive⟩ => ⟨nested, code, directive⟩⟩

/-- No statement shows a byte-order mark. -/
private theorem byteOrderMark_notMem_text (mem : s ∈ ofText t) : byteOrderMark ∉ s.text := by
  intro within
  obtain ⟨i, line, at_, -, kept, -⟩ := exists_kept mem
  obtain ⟨before, after, split⟩ := List.append_of_mem within
  obtain ⟨p, -, -, keeps⟩ := kept _ _ ⟨⟨before, after, split, rfl⟩, by decide⟩
  obtain ⟨front, back, whole, -⟩ := keeps.code.has
  obtain ⟨raw, -, rfl⟩ := getElem?_sourceLines_iff.mp at_
  refine byteOrderMark_notMem_withoutMarkers raw ?_
  rw [whole]
  exact List.mem_append_right front List.mem_cons_self

/-- A split mark is shown at a byte of a line exactly when the line leaves one there. -/
private theorem exists_startsAt_iff {i : Nat} :
    (∃ s ∈ ofText t, s.line = i + 1 ∧ s.text.StartsAt s.column splitMark (p + 1)) ↔
      ∃ raw, t.physicalLines[i]? = some raw ∧
        LeavesMark (openAfter false (t.sourceLines.take i)) raw p := by
  constructor
  · rintro ⟨s, mem, number, starts⟩
    obtain ⟨j, line, at_, mem⟩ := mem_ofText_iff.mp mem
    obtain rfl : j = i := Nat.succ.inj ((line_of_mem_ofLine mem).symm.trans number)
    obtain ⟨raw, listed, rfl⟩ := getElem?_sourceLines_iff.mp at_
    exact ⟨raw, listed, leavesMark_iff.mpr ⟨s, mem, starts⟩⟩
  · rintro ⟨raw, listed, leaves⟩
    obtain ⟨s, mem, starts⟩ := (leavesMark_iff (n := i + 1)).mp leaves
    have at_ := getElem?_sourceLines_iff.mpr ⟨raw, listed, rfl⟩
    exact ⟨s, mem_ofText_iff.mpr ⟨i, _, at_, mem⟩, line_of_mem_ofLine mem, starts⟩

/-- No statement of a header text shows a byte-order mark. A split mark is shown at a byte of a line
exactly when one with others in it stands there, outside comments and directives. So the statements
are without markers exactly when no line leaves one. -/
theorem ofText_leaves_marks (t : Text) :
    (∀ s ∈ ofText t, byteOrderMark ∉ s.text) ∧
      (∀ i p, (∃ s ∈ ofText t, s.line = i + 1 ∧ s.text.StartsAt s.column splitMark (p + 1)) ↔
        ∃ raw, t.physicalLines[i]? = some raw ∧
          LeavesMark (openAfter false (t.sourceLines.take i)) raw p) ∧
      ((∀ s ∈ ofText t, s.text.Unmarked) ↔ ∀ i raw, t.physicalLines[i]? = some raw →
        ∀ p, ¬LeavesMark (openAfter false (t.sourceLines.take i)) raw p) := by
  refine ⟨fun s mem => byteOrderMark_notMem_text mem, fun i p => exists_startsAt_iff, ?_⟩
  constructor
  · intro unmarked i raw listed p leaves
    obtain ⟨s, mem, -, before, after, split, -⟩ := exists_startsAt_iff.mpr ⟨raw, listed, leaves⟩
    exact (unmarked s mem).split ⟨before, after, split.symm⟩
  · intro apart s mem
    refine ⟨byteOrderMark_notMem_text mem, ?_⟩
    rintro ⟨before, after, split⟩
    obtain ⟨i, line, -, within⟩ := mem_ofText_iff.mp mem
    have number : s.line = i + 1 := line_of_mem_ofLine within
    have positive := column_pos_of_mem_ofText mem
    have starts : s.text.StartsAt s.column splitMark (s.column + width before - 1 + 1) :=
      ⟨before, after, split.symm, by omega, _, _, rfl, by decide⟩
    obtain ⟨raw, listed, leaves⟩ := exists_startsAt_iff.mp ⟨s, mem, number, starts⟩
    exact apart i raw listed _ leaves

/-- Split marks one behind the other, and one that a byte-order mark cuts in two. -/
example : ∀ s ∈ ofText "\ufeff\u00ef\u00bb\u00bf\u00ef\u00bb\ufeff\u00bfint x;".toList,
    s.text.Unmarked := by decide +kernel

/-- A structure behind a split mark with another one in it. -/
def markedText : Text :=
  "\u00ef\u00ef\u00bb\u00bf\u00bb\u00bfstruct evfs_a \x7b int x; \x7d;".toList

theorem not_unmarked_markedText : ¬∀ s ∈ ofText markedText, s.text.Unmarked := by
  decide +kernel

end Statement

end FieldTables
