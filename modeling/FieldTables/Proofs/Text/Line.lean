import FieldTables.Proofs.Text.Name
import FieldTables.Text.Line
import Mathlib.Data.List.DropRight

/-!
# The line at a position

A position cuts a text in two. The line that goes over it is made of what stands in front of the
position, back to the line feed before, and of the first line of what stands behind it.
-/

namespace FieldTables.Text

variable {s t front : Text} {c : Char}

/-- The lines of a text that are ended. -/
def endedLines (t : Text) : Text := t.rdropWhile (· != '\n')

/-- What stands behind the last line feed of a text. -/
def lastLine (t : Text) : Text := t.rtakeWhile (· != '\n')

/-- The first physical line of a text. -/
def firstLine (t : Text) : Text := t.physicalLines.headD []

theorem endedLines_append_lastLine (t : Text) : t.endedLines ++ t.lastLine = t :=
  List.rdropWhile_append_rtakeWhile

/-- The last line goes over no line feed. -/
theorem oneLine_lastLine (t : Text) : t.lastLine.OneLine := fun mem => by
  have other := List.mem_rtakeWhile_imp mem
  cases other

/-- Text on one line goes on with the last line. -/
theorem append_of_oneLine (oneLine : t.OneLine) :
    endedLines (s ++ t) = s.endedLines ∧ lastLine (s ++ t) = s.lastLine ++ t := by
  have goesOn : ∀ c ∈ t.reverse, (c != '\n') = true := fun c mem => by
    rw [bne_iff_ne]
    rintro rfl
    exact oneLine (List.mem_reverse.mp mem)
  rw [endedLines, lastLine, List.rdropWhile, List.rtakeWhile, List.reverse_append,
    List.dropWhile_append_of_pos goesOn, List.takeWhile_append_of_pos goesOn, List.reverse_append,
    List.reverse_reverse]
  exact ⟨rfl, rfl⟩

/-- The lines that are ended end with a line feed. -/
theorem eq_of_getLast?_endedLines (last : t.endedLines.getLast? = some c) : c = '\n' := by
  have nonempty : t.endedLines ≠ [] := by rintro empty; rw [empty] at last; cases last
  rw [List.getLast?_eq_some_getLast nonempty, Option.some.injEq] at last
  have stop := List.rdropWhile_last_not _ t nonempty
  have last : (t.rdropWhile (· != '\n')).getLast nonempty = c := last
  rw [last] at stop
  simpa using stop

/-- No physical line goes over a line feed. -/
theorem oneLine_of_mem_physicalLines (t : Text) : ∀ line ∈ t.physicalLines, line.OneLine := by
  fun_induction physicalLines t with
  | case1 => exact List.forall_mem_nil _
  | case2 rest ih => exact List.forall_mem_cons.mpr ⟨List.not_mem_nil, ih⟩
  | case3 rest ih => exact List.forall_mem_cons.mpr ⟨List.not_mem_nil, ih⟩
  | case4 c rest feed _ last ih =>
    rw [List.forall_mem_singleton]
    exact fun mem => feed (List.mem_singleton.mp mem).symm
  | case5 c rest feed _ line lines found ih =>
    rw [found, List.forall_mem_cons] at ih
    refine List.forall_mem_cons.mpr ⟨fun mem => ?_, ih.2⟩
    rcases List.mem_cons.mp mem with same | below
    · exact feed same.symm
    · exact ih.1 below

theorem physicalLines_ne_nil (nonempty : t ≠ []) : t.physicalLines ≠ [] := by
  fun_cases physicalLines t with
  | case1 => exact absurd rfl nonempty
  | case2 rest => exact List.cons_ne_nil _ _
  | case3 rest => exact List.cons_ne_nil _ _
  | case4 c rest => exact List.cons_ne_nil _ _
  | case5 c rest _ _ line lines => exact List.cons_ne_nil _ _

/-- A character that ends no line goes in front of the first line of what follows it. -/
theorem physicalLines_cons (feed : c ≠ '\n') (inside : c = '\r' → t.head? ≠ some '\n') :
    physicalLines (c :: t) = (c :: t.firstLine) :: t.physicalLines.tail := by
  rw [physicalLines, firstLine]
  · cases t.physicalLines with
    | nil => rfl
    | cons line lines => rfl
  · exact feed
  · rintro rest same rfl
    exact inside same rfl

/-- Lines that are ended are lines of every text that goes on behind them. -/
theorem physicalLines_append (ended : ∀ c ∈ s.getLast?, c = '\n') :
    physicalLines (s ++ t) = s.physicalLines ++ t.physicalLines := by
  have below : ∀ {c : Char} {rest : Text}, (∀ d ∈ (c :: rest).getLast?, d = '\n') →
      ∀ d ∈ rest.getLast?, d = '\n' := by
    intro c rest ended d last
    cases rest with
    | nil => cases last
    | cons e rest => exact ended d (by rwa [List.getLast?_cons_cons])
  fun_induction physicalLines s with
  | case1 => rfl
  | case2 rest ih => exact congrArg ([] :: ·) (ih (below ended))
  | case3 rest ih => exact congrArg ([] :: ·) (ih (below (below ended)))
  | case4 c rest feed _ last ih =>
    -- The last line would not be ended.
    have empty : rest = [] := by
      by_contra nonempty
      exact physicalLines_ne_nil nonempty last
    rw [empty] at ended
    exact absurd (ended c rfl) feed
  | case5 c rest feed inside line lines found ih =>
    have nonempty : rest ≠ [] := by rintro rfl; cases found
    obtain ⟨d, rest, rfl⟩ := List.exists_cons_of_ne_nil nonempty
    have step : c = '\r' → (d :: rest ++ t).head? ≠ some '\n' := by
      rintro same next
      exact inside rest same (by rw [← Option.some.inj next])
    have all := ih (below ended)
    rw [List.cons_append, physicalLines_cons feed step, firstLine, all, found]
    rfl

/-- The first line that goes over a position, and the lines behind it. -/
theorem physicalLines_append_of_oneLine (oneLine : s.OneLine) (full : s ++ t ≠ [])
    (inside : s.getLast? = some '\r' → t.head? ≠ some '\n') :
    physicalLines (s ++ t) = (s ++ t.firstLine) :: t.physicalLines.tail := by
  induction s with
  | nil =>
    have lines : t.physicalLines ≠ [] := physicalLines_ne_nil full
    rw [List.nil_append, List.nil_append, firstLine]
    cases split : t.physicalLines with
    | nil => exact absurd split lines
    | cons line others => rfl
  | cons c s ih =>
    rw [OneLine, List.mem_cons, not_or] at oneLine
    have feed : c ≠ '\n' := fun same => oneLine.1 same.symm
    have step : c = '\r' → (s ++ t).head? ≠ some '\n' := by
      rintro rfl next
      cases s with
      | nil => exact inside rfl next
      | cons d s => exact oneLine.2 (by rw [← Option.some.inj next]; exact List.mem_cons_self)
    rw [List.cons_append, physicalLines_cons feed step]
    by_cases empty : s ++ t = []
    · obtain ⟨rfl, rfl⟩ := List.append_eq_nil_iff.mp empty
      rfl
    · have all := ih oneLine.2 empty fun last => inside (by
        cases s with
        | nil => cases last
        | cons d s => rwa [List.getLast?_cons_cons])
      rw [firstLine, all]
      rfl

theorem firstLine_prefix (t : Text) : t.firstLine <+: t := by
  rw [firstLine]
  fun_induction physicalLines t with
  | case1 => exact List.prefix_refl _
  | case2 rest => exact List.nil_prefix
  | case3 rest => exact List.nil_prefix
  | case4 c rest _ _ last => exact ⟨rest, rfl⟩
  | case5 c rest _ _ line lines found ih =>
    rw [found] at ih
    exact (List.prefix_cons_inj c).mpr ih

end FieldTables.Text
