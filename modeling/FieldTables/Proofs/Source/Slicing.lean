import FieldTables.Proofs.Source.Delimiter
import FieldTables.Proofs.Text.Trimming
import FieldTables.Source.Checked

/-!
# Slices around comments and blanks

A delimiter is two characters of one byte each, so its place and the byte behind it cut no
character, and the text behind it is sliced again. The blanks in front of a statement are no wider
than the statement. So every line of a header comes with all its slices.
-/

namespace FieldTables.Checked

open Comment Text

variable {first second : Char} {t front behind : Text} {line : Nat}

/-- Two characters are found at the first place where one follows the other. -/
theorem place?_eq (first second : Char) (t : Text) :
    place? [first, second] t = (cutAt first second t).map fun cut => cut.1.width := by
  induction t with
  | nil => rfl
  | cons c rest ih =>
    have here : [first, second].isPrefixOf (c :: rest) = true ↔
        c = first ∧ rest.head? = some second := by
      rw [List.isPrefixOf, Bool.and_eq_true, beq_iff_eq, eq_comm]
      refine and_congr_right fun _ => ?_
      cases rest with
      | nil => exact iff_of_false nofun nofun
      | cons d others => simpa using eq_comm
    rw [place?, cutAt]
    by_cases found : c = first ∧ rest.head? = some second
    · rw [if_pos (here.mpr found), if_pos found]
      rfl
    · rw [if_neg (here.not.mpr found), if_neg found, ih, Option.map_map, Option.map_map]
      rfl

/-- What stands in front of a place, up to the end of a delimiter, and behind it. -/
theorem slices_of_cutAt (cut : cutAt first second t = some (front, behind))
    (narrow : first.utf8Size = 1 ∧ second.utf8Size = 1) :
    t.slice? 0 front.width = some front ∧
      t.slice? 0 (front.width + 2) = some (front ++ [first, second]) ∧
      t.slice? (front.width + 2) t.width = some behind := by
  have whole := eq_of_cutAt cut
  have split : t = (front ++ [first, second]) ++ behind := by simp [whole]
  have wide : width (front ++ [first, second]) = front.width + 2 := by
    simp [narrow.1, narrow.2]
  refine ⟨?_, ?_, ?_⟩
  · rw [whole]
    exact slice?_front _ _
  · rw [split, ← wide]
    exact slice?_front _ _
  · rw [split, ← wide]
    exact slice?_back _ _

/-- A block comment is blanked out up to the end of its delimiter. -/
theorem strip_closed (cut : cutAt '*' '/' t = some (front, behind)) :
    strip true t = (strip false behind).map fun (kept, still) =>
      (spaces (front.width + 2) ++ kept, still) := by
  obtain ⟨-, comment, rest⟩ := slices_of_cutAt cut ⟨rfl, rfl⟩
  have blank : blanked (front ++ ['*', '/']) = spaces (front.width + 2) := by
    rw [blanked, width_append]
    rfl
  conv_lhs => rw [strip, place?_eq, cut]
  dsimp only [Option.map_some]
  split
  next first later =>
    obtain rfl := Option.some.inj (first.symm.trans comment)
    obtain rfl := Option.some.inj (later.symm.trans rest)
    rw [blank]
  next missing => exact absurd rest (missing _ _ comment)

/-- Code is kept up to the delimiter that opens a block comment. -/
theorem strip_opened (cut : cutAt '/' '*' t = some (front, behind))
    (line : (cutAt '/' '/' t).filter (fun cut => cut.1.width < front.width) = none) :
    strip false t = (strip true behind).map fun (kept, still) =>
      (front ++ spaces 2 ++ kept, still) := by
  obtain ⟨code, -, rest⟩ := slices_of_cutAt cut ⟨rfl, rfl⟩
  have absent : (place? ['/', '/'] t).filter (· < front.width) = none := by
    rw [place?_eq, Option.filter_map]
    exact Option.map_eq_none_iff.mpr line
  conv_lhs => rw [strip, place?_eq, cut]
  dsimp only [Option.map_some]
  rw [absent]
  dsimp only
  split
  next first later =>
    obtain rfl := Option.some.inj (first.symm.trans code)
    obtain rfl := Option.some.inj (later.symm.trans rest)
    rfl
  next missing => exact absurd rest (missing _ _ code)

/-- Code is kept up to a line comment that starts in front of every block comment. -/
theorem strip_cut {kept rest : Text} (cut : cutAt '/' '*' t = some (front, behind))
    (line : (cutAt '/' '/' t).filter (fun cut => cut.1.width < front.width) = some (kept, rest)) :
    strip false t = some (kept, false) := by
  obtain ⟨found, -⟩ := Option.filter_eq_some_iff.mp line
  obtain ⟨code, -, -⟩ := slices_of_cutAt found ⟨rfl, rfl⟩
  have placed : (place? ['/', '/'] t).filter (· < front.width) = some kept.width := by
    rw [place?_eq, Option.filter_map]
    exact congrArg _ line
  rw [strip, place?_eq, cut]
  dsimp only [Option.map_some]
  rw [placed]
  dsimp only
  rw [code]
  rfl

/-- A line is stripped by its bytes as it is by searching, and all slices are there. -/
theorem strip_eq (inside : Bool) (t : Text) : strip inside t = some (Comment.strip inside t) := by
  rw [← searched_eq_strip]
  fun_induction searched inside t with
  | case1 t front behind found _ kept still below ih =>
    rw [strip_closed found, ih, below]
    rfl
  | case2 t nowhere =>
    rw [strip, place?_eq, nowhere]
    rfl
  | case3 t front behind opens _ kept rest line => rw [strip_cut opens line]
  | case4 t front behind opens _ kept still below line ih =>
    rw [strip_opened opens line, ih, below]
    rfl
  | case5 t front rest block cuts =>
    obtain ⟨code, -, -⟩ := slices_of_cutAt cuts ⟨rfl, rfl⟩
    rw [strip, place?_eq, place?_eq, block, cuts]
    dsimp only [Option.map_some, Option.map_none]
    rw [code]
    rfl
  | case6 t block line =>
    rw [strip, place?_eq, place?_eq, block, line]
    rfl

/-- The blanks in front of a text are not wider than the text. -/
theorem minus?_trimStart (t : Text) : minus? t.width t.trimStart.width = some t.indent.width := by
  have whole := congrArg width (indent_append_trimStart t)
  rw [width_append] at whole
  rw [minus?, if_pos (by omega), Option.some.injEq]
  omega

/-- The column of a statement is never below that of its line. -/
theorem ofPiece_eq (line : Nat) (piece : Nat × Text) :
    ofPiece line piece = some (Statement.ofPiece line piece) := by
  rw [ofPiece, minus?_trimStart]
  rfl

theorem ofLine_eq (line : Nat) (t : Text) : ofLine line t = some (Statement.ofLine line t) := by
  rw [ofLine, Statement.ofLine]
  split
  next => rfl
  next =>
    have each : ofPiece line = fun piece => pure (Statement.ofPiece line piece) :=
      funext (ofPiece_eq line)
    rw [each]
    exact List.mapM_pure

theorem ofLines_eq (inside : Bool) (line : Nat) (lines : List Text) :
    ofLines inside line lines = some (Statement.ofLines inside line lines) := by
  induction lines generalizing inside line with
  | nil => rfl
  | cons t rest ih =>
    rw [ofLines, strip_eq, Statement.ofLines]
    simp only [Option.bind_eq_bind, Option.bind_some, ofLine_eq, ih]
    rfl

/-- A header text is cut into statements with all its slices. -/
theorem statements_eq (t : Text) : statements t = some (Statement.ofText t) :=
  ofLines_eq false 1 t.physicalLines

end FieldTables.Checked
