import FieldTables.Proofs.Source.Delimiter
import FieldTables.Proofs.Text.Marker
import FieldTables.Proofs.Text.Name
import FieldTables.Source.Statement

/-!
# One scan of a whole text

Comments can be found in one scan over a whole text, a character at a time. The scan stands in no
comment, in a block comment or in a line comment; behind a slash or a star it remembers that the
next character may open or close a comment. The end of a line ends a line comment and is no part of
a delimiter. Stripping line by line, with what is carried over from one line to the next, writes the
same text and knows at the end of each line whether the scan stands in a block comment.
-/

namespace FieldTables.Comment

open Text

namespace State

/-- One character further on in a whole text. -/
def onward (s : State) (c : Char) : State := if c = '\n' then start s.inBlock else s.next c

/-- A whole text further on. -/
def read (s : State) (t : Text) : State := t.foldl onward s

/-- What is written for a character. In no comment a slash is held back until the next character
says whether both open a comment. -/
def written (s : State) (c : Char) : Text :=
  match s with
  | code => if c = '/' then [] else [c]
  | slash => if c = '*' then [' ', ' '] else if c = '/' then [] else ['/', c]
  | block | star => if c = '\n' then [c] else spaces c.utf8Size
  | line => if c = '\n' then [c] else []

/-- What is still held back at the end. -/
def held : State → Text
  | slash => ['/']
  | code | block | star | line => []

end State

/-- What a scan writes for a whole text. -/
def scan (s : State) : Text → Text
  | [] => s.held
  | c :: rest => s.written c ++ scan (s.onward c) rest

/-- What is left of each line, and whether a block comment is open at its end, when comments are
stripped line by line. -/
def stripLines (inside : Bool) : List Text → List (Text × Bool)
  | [] => []
  | line :: rest => strip inside line :: stripLines (strip inside line).2 rest

variable {inside : Bool} {t line rest : Text} {c : Char} {lines : List Text}

/-- Where a text ends or a line does, nothing is held back and no line comment goes on. -/
def Ended (rest : Text) : Prop := ∀ c ∈ rest.head?, c = '\n'

/-- A line comment is dropped to the end of its line. -/
private theorem scan_line (oneLine : t.OneLine) (ended : Ended rest) :
    scan .line (t ++ rest) = scan .code rest := by
  induction t with
  | nil =>
    cases rest with
    | nil => rfl
    | cons c rest =>
      obtain rfl : c = '\n' := ended c rfl
      rfl
  | cons c t ih =>
    simp only [OneLine, List.mem_cons, not_or] at oneLine
    have feed : c ≠ '\n' := fun same => oneLine.1 same.symm
    simp [scan, State.written, State.onward, State.next, feed, ih oneLine.2]

/-- A star that no slash follows closes nothing. -/
private theorem scan_star (other : t.head? ≠ some '/') : scan .star t = scan .block t := by
  cases t with
  | nil => rfl
  | cons c rest =>
    have other : c ≠ '/' := by simpa using other
    simp [scan, State.written, State.onward, State.next, State.inBlock, other]

/-- A slash that neither a slash nor a star follows opens nothing. -/
private theorem scan_slash (notSlash : t.head? ≠ some '/') (notStar : t.head? ≠ some '*') :
    scan .slash t = '/' :: scan .code t := by
  cases t with
  | nil => rfl
  | cons c rest =>
    have notSlash : c ≠ '/' := by simpa using notSlash
    have notStar : c ≠ '*' := by simpa using notStar
    simp [scan, State.written, State.onward, State.next, State.inBlock, notSlash, notStar]

/-- What stands in front of the end of a text or of a line is followed by no slash but its own. -/
private theorem head?_append_ne {d : Char} (other : line.head? ≠ some d) (ended : Ended rest)
    (feed : d ≠ '\n') : (line ++ rest).head? ≠ some d := by
  cases line with
  | nil => exact fun first => feed (ended d first)
  | cons c line => exact other

/-- A scan writes for a line what stripping leaves of it, and goes on as stripping does. -/
theorem scan_append (oneLine : line.OneLine) (ended : Ended rest) :
    scan (.start inside) (line ++ rest) =
      (strip inside line).1 ++ scan (.start (strip inside line).2) rest := by
  fun_induction strip inside line with
  | case1 inside => rfl
  | case2 line kept stillInside h ih =>
    have below : scan (.start false) (line ++ rest) = kept ++ scan (.start stillInside) rest := by
      have own := ih (by simp_all [OneLine])
      rwa [h] at own
    exact congrArg (' ' :: ' ' :: ·) below
  | case3 c line closes kept stillInside h ih =>
    simp only [OneLine, List.mem_cons, not_or] at oneLine
    have feed : c ≠ '\n' := fun same => oneLine.1 same.symm
    have below : scan .block (line ++ rest) = kept ++ scan (.start stillInside) rest := by
      have own := ih oneLine.2
      rwa [h] at own
    by_cases star : c = '*'
    · have other : line.head? ≠ some '/' := by
        intro first
        obtain ⟨others, shape⟩ := List.head?_eq_some_iff.mp first
        exact closes others star shape
      have goes := scan_star (head?_append_ne other ended (by decide))
      simp [scan, State.start, State.written, State.onward, State.next, star, goes, below]
    · simp [scan, State.start, State.written, State.onward, State.next, star, feed, below]
  | case4 line kept stillInside h ih =>
    have below : scan (.start true) (line ++ rest) = kept ++ scan (.start stillInside) rest := by
      have own := ih (by simp_all [OneLine])
      rwa [h] at own
    exact congrArg (' ' :: ' ' :: ·) below
  | case5 line =>
    have below := scan_line (t := line) (by simp_all [OneLine]) ended
    exact below
  | case6 c line opens cuts kept stillInside h ih =>
    simp only [OneLine, List.mem_cons, not_or] at oneLine
    have feed : c ≠ '\n' := fun same => oneLine.1 same.symm
    have below : scan .code (line ++ rest) = kept ++ scan (.start stillInside) rest := by
      have own := ih oneLine.2
      rwa [h] at own
    by_cases slash : c = '/'
    · have notSlash : line.head? ≠ some '/' := by
        intro first
        obtain ⟨others, shape⟩ := List.head?_eq_some_iff.mp first
        exact cuts others slash shape
      have notStar : line.head? ≠ some '*' := by
        intro first
        obtain ⟨others, shape⟩ := List.head?_eq_some_iff.mp first
        exact opens others slash shape
      have goes := scan_slash (head?_append_ne notSlash ended (by decide))
        (head?_append_ne notStar ended (by decide))
      simp [scan, State.start, State.written, State.onward, State.next, slash, goes, below]
    · simp [scan, State.start, State.written, State.onward, State.next, slash, feed, below]

/-- On one line a scan stands where reading the line alone leads. -/
theorem read_of_oneLine (s : State) (oneLine : line.OneLine) : s.read line = s.after line := by
  induction line generalizing s with
  | nil => rfl
  | cons c line ih =>
    simp only [OneLine, List.mem_cons, not_or] at oneLine
    have feed : c ≠ '\n' := fun same => oneLine.1 same.symm
    have step : s.onward c = s.next c := if_neg feed
    rw [State.read, State.after, List.foldl_cons, List.foldl_cons, step]
    exact ih (s.next c) oneLine.2

/-- Behind a line a scan starts the next one, inside a block comment as stripping says. -/
theorem read_append (oneLine : line.OneLine) :
    State.read (.start inside) (line ++ '\n' :: rest) =
      State.read (.start (strip inside line).2) rest := by
  have first : State.read (.start inside) line = State.after (.start inside) line :=
    read_of_oneLine _ oneLine
  rw [(strip_eq inside line).2, ← first]
  simp [State.read, State.onward]

/-- At the end of each line the scan stands in a block comment when stripping says so. -/
private theorem map_snd_stripLines (each : ∀ line ∈ lines, line.OneLine) :
    (stripLines inside lines).map Prod.snd = (List.range lines.length).map fun i =>
      (State.read (.start inside) (['\n'].intercalate (lines.take (i + 1)))).inBlock := by
  induction lines generalizing inside with
  | nil => rfl
  | cons line rest ih =>
    obtain ⟨here, below⟩ := List.forall_mem_cons.mp each
    rw [stripLines, List.map_cons, ih below, List.length_cons, List.range_succ_eq_map,
      List.map_cons, List.map_map]
    congr 1
    · simp [read_of_oneLine _ here, (strip_eq inside line).2]
    · apply List.map_congr_left
      intro i mem
      rw [List.mem_range] at mem
      cases rest with
      | nil => simp at mem
      | cons next others =>
        simp [List.take_succ_cons, List.intercalate_cons_cons, read_append here]

/-- Scanning lines together writes what stripping leaves of each. -/
private theorem scan_intercalate (each : ∀ line ∈ lines, line.OneLine) :
    scan (.start inside) (['\n'].intercalate lines) =
      ['\n'].intercalate ((stripLines inside lines).map Prod.fst) := by
  induction lines generalizing inside with
  | nil => cases inside <;> rfl
  | cons line rest ih =>
    obtain ⟨here, below⟩ := List.forall_mem_cons.mp each
    cases rest with
    | nil =>
      have whole : scan (.start inside) (line ++ []) =
          (strip inside line).1 ++ scan (.start (strip inside line).2) [] := scan_append here nofun
      have nothing : scan (.start (strip inside line).2) [] = [] := by
        cases (strip inside line).2 <;> rfl
      rw [List.append_nil, nothing, List.append_nil] at whole
      simpa [stripLines] using whole
    | cons next others =>
      have ended : Ended ('\n' :: ['\n'].intercalate (next :: others)) := by simp [Ended]
      have feed : ∀ inside : Bool, ∀ t, scan (.start inside) ('\n' :: t) =
          '\n' :: scan (.start inside) t := by
        intro inside t
        cases inside <;> rfl
      have behind : scan (.start (strip inside line).2) (['\n'].intercalate (next :: others)) =
          ['\n'].intercalate ((stripLines (strip inside line).2 (next :: others)).map Prod.fst) :=
        ih below
      rw [stripLines, List.map_cons] at behind
      rw [List.intercalate_cons_cons, List.append_assoc, List.singleton_append,
        scan_append here ended, feed, behind, stripLines, stripLines, List.map_cons, List.map_cons,
        List.intercalate_cons_cons, List.append_assoc, List.singleton_append]

/-- The statements of lines are those of what stripping leaves of each, without encoding markers. -/
private theorem ofLines_eq (inside : Bool) (n : Nat) (lines : List Text) :
    Statement.ofLines inside n lines =
      ((stripLines inside (lines.map withoutMarkers)).zipIdx n).flatMap fun left =>
        Statement.ofLine left.2 left.1.1 := by
  induction lines generalizing inside n with
  | nil => rfl
  | cons line rest ih =>
    rw [Statement.ofLines, List.map_cons, stripLines, List.zipIdx_cons, List.flatMap_cons, ← ih]

/-- Lines that are stripped one after the other, each by searching the delimiters and from any state
on, are left as one scan of all of them writes them, and after each line a block comment is open
when the scan stands in one at the end of the line. The statements of a header text are cut from
what is left. -/
theorem stripLines_scans (inside : Bool) (each : ∀ line ∈ lines, line.OneLine) :
    (∀ inside line, searched inside line = strip inside line) ∧
      scan (.start inside) (['\n'].intercalate lines) =
        ['\n'].intercalate ((stripLines inside lines).map Prod.fst) ∧
      (stripLines inside lines).map Prod.snd = (List.range lines.length).map (fun i =>
        (State.read (.start inside) (['\n'].intercalate (lines.take (i + 1)))).inBlock) ∧
      ∀ n raw, raw.map withoutMarkers = lines → Statement.ofLines inside n raw =
        ((stripLines inside lines).zipIdx n).flatMap fun left =>
          Statement.ofLine left.2 left.1.1 := by
  refine ⟨searched_eq_strip, scan_intercalate each, map_snd_stripLines each, ?_⟩
  intro n raw marked
  subst marked
  exact ofLines_eq inside n raw

/-- A delimiter that closes nothing, one cut in two by the end of a line, and one behind another. -/
def overlappingLines : List Text :=
  ["x */*/ a /*/ é".toList, "*".toList, "/ b */ c /".toList, "/ d //* e".toList, "f /**/ g".toList]

theorem stripLines_scans_overlappingLines :
    (∀ line ∈ overlappingLines, line.OneLine) ∧
      scan .block (['\n'].intercalate overlappingLines) =
        ['\n'].intercalate ((stripLines true overlappingLines).map Prod.fst) ∧
      stripLines true overlappingLines =
        [("    */ a       ".toList, true), (" ".toList, true), ("       c /".toList, false),
          ("/ d ".toList, false), ("f      g".toList, false)] := by
  have each : ∀ line ∈ overlappingLines, line.OneLine := by decide
  obtain ⟨-, scanned, -, -⟩ := stripLines_scans true each
  exact ⟨each, scanned, by decide⟩

end FieldTables.Comment
