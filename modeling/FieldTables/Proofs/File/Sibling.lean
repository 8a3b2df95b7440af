import FieldTables.Proofs.File.Resolution

/-!
# Hidden files beside a target

The hidden files of a target take their names from its own. So a target and its hidden files are
never one file, whatever path is given for the target.
-/

namespace FieldTables

namespace Path

/-- The name of the hidden file beside a path. -/
def siblingName (p : Path) (suffix : Text) : Text :=
  '.' :: p.fileName?.getD [] ++ '.' :: suffix

/-- A hidden file has its name at the end of its path. -/
theorem getLast?_parts_sibling (p : Path) (suffix : Text) :
    (p.sibling suffix).parts.getLast? = some (p.siblingName suffix) := by
  unfold sibling siblingName fileName?
  cases p.splitFileName? with
  | none => simp
  | some split => simp

end Path

namespace FileTree

variable {t : FileTree} {p q : Path} {l k : Location}

/-- The location that a path names ends in the last part of the path that is not empty, and that
part is no dots. -/
theorem Names.exists_last (names : t.Names p l) :
    ∃ name before, p.parts.reverse.dropWhile List.isEmpty = name :: before ∧
      l.getLast? = some name ∧ name ≠ ['.'] ∧ name ≠ ['.', '.'] := by
  obtain ⟨place, resolved, dots, -, -, rfl⟩ := names
  unfold FileTree.place at resolved
  split at resolved
  · cases resolved
  cases parts : p.parts.reverse.dropWhile List.isEmpty with
  | nil =>
    rw [parts] at resolved
    dsimp only at resolved
    split at resolved <;> cases resolved
    cases dots
  | cons name before =>
    rw [parts] at resolved
    obtain ⟨directory, -, result⟩ := Outcome.bind_eq_ok_iff.mp resolved
    cases result
    refine ⟨name, before, rfl, by simp [Place.location], ?_⟩
    simpa [Place.isDots] using dots

/-- What is not idle stays in front when idle parts are dropped. -/
private theorem dropWhile_isIdle {parts before : List Text} {name : Text}
    (front : parts.dropWhile List.isEmpty = name :: before) (dot : name ≠ ['.']) :
    parts.dropWhile Path.isIdle = name :: before := by
  induction parts with
  | nil => cases front
  | cons part rest ih =>
    cases empty : part.isEmpty with
    | true =>
      rw [List.dropWhile_cons_of_pos empty] at front
      rw [List.dropWhile_cons_of_pos (by simp [Path.isIdle, empty])]
      exact ih front
    | false =>
      rw [List.dropWhile_cons_of_neg (by simp [empty])] at front
      cases front
      rw [List.dropWhile_cons_of_neg (by simp [Path.isIdle, empty, dot])]

/-- A path that names the place of a file has the name of the place as its file name. -/
theorem Names.fileName? (names : t.Names p l) : p.fileName? = l.getLast? := by
  obtain ⟨name, before, parts, last, dot, dots⟩ := names.exists_last
  rw [last, Path.fileName?, Path.splitFileName?, dropWhile_isIdle parts dot]
  simp [dots]

/-- A hidden file ends in its own name. -/
theorem Names.getLast?_sibling {suffix : Text} (names : t.Names (p.sibling suffix) l) :
    l.getLast? = some (p.siblingName suffix) := by
  obtain ⟨name, before, parts, last, -⟩ := names.exists_last
  have front := p.getLast?_parts_sibling suffix
  rw [← List.head?_reverse] at front
  obtain ⟨rest, whole⟩ := List.head?_eq_some_iff.mp front
  rw [whole, List.dropWhile_cons_of_neg (by simp [Path.siblingName])] at parts
  cases parts
  exact last

/-- A target is none of its hidden files. -/
theorem Names.ne_sibling {suffix : Text} (target : t.Names p l)
    (sibling : t.Names (p.sibling suffix) k) : l ≠ k := by
  rintro rfl
  have name := target.fileName?.trans sibling.getLast?_sibling
  have longer := congrArg List.length (congrArg (·.getD []) name)
  simp [Path.siblingName] at longer
  omega

/-- Hidden files with different suffixes are different. -/
theorem Names.sibling_ne {suffix other : Text} (different : suffix ≠ other)
    (first : t.Names (p.sibling suffix) l) (second : t.Names (p.sibling other) k) : l ≠ k := by
  rintro rfl
  have name := first.getLast?_sibling.symm.trans second.getLast?_sibling
  simp [Path.siblingName, different] at name

end FileTree

end FieldTables
