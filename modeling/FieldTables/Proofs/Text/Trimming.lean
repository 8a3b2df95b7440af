import FieldTables.Text.Character
import Mathlib.Data.List.TakeWhile
import Mathlib.Tactic.Conv

/-!
# Trimmed texts

Trimming drops blanks at both ends and nothing else, so it leaves nothing exactly when a text is
blank, and a trimmed text ends before the text does.
-/

namespace FieldTables.Text

variable {t : Text} {c : Char}

/-- Trimming the end drops nothing but blanks. -/
theorem exists_trimEnd (t : Text) :
    ∃ blanks, t = t.trimEnd ++ blanks ∧ ∀ c ∈ blanks, isBlank c = true := by
  induction t with
  | nil => exact ⟨[], rfl, nofun⟩
  | cons d rest ih =>
    obtain ⟨blanks, split, blank⟩ := ih
    rw [trimEnd]
    split
    next gone =>
      rw [Bool.and_eq_true, List.isEmpty_iff] at gone
      rw [gone.1, List.nil_append] at split
      exact ⟨d :: rest, rfl, List.forall_mem_cons.mpr ⟨gone.2, split ▸ blank⟩⟩
    next => exact ⟨blanks, congrArg (d :: ·) split, blank⟩

/-- A trimmed text ends before the text does. -/
theorem width_trim_le (t : Text) : t.indent.width + t.trim.width ≤ t.width := by
  obtain ⟨blanks, split, -⟩ := exists_trimEnd t.trimStart
  conv_rhs => rw [← indent_append_trimStart t, split]
  rw [width_append, width_append, trim]
  omega

/-- Trimming twice is trimming once. -/
theorem trim_trim (t : Text) : t.trim.trim = t.trim := by
  have front : trimStart t.trim = t.trim := by
    rw [trim]
    cases start : t.trimStart with
    | nil => rfl
    | cons c rest =>
      have visible : ¬isBlank c = true := by
        have first := List.head?_dropWhile_not isBlank t
        rw [← trimStart, start] at first
        simpa using first
      have kept : trimEnd (c :: rest) = c :: trimEnd rest := by simp [trimEnd, visible]
      rw [kept, trimStart, List.dropWhile_cons_of_neg visible]
  have back : ∀ s : Text, trimEnd (trimEnd s) = trimEnd s := by
    intro s
    induction s with
    | nil => rfl
    | cons c rest ih =>
      rw [trimEnd]
      split
      next => rfl
      next kept => rw [trimEnd, ih, if_neg kept]
  rw [trim, front, trim, back]

theorem trim_subset (t : Text) : t.trim ⊆ t := by
  have ends : ∀ t : Text, trimEnd t ⊆ t := by
    intro t
    induction t with
    | nil => exact List.Subset.refl _
    | cons c rest ih =>
      rw [trimEnd]
      split
      next => exact List.nil_subset _
      next => exact List.cons_subset_cons c ih
  exact List.Subset.trans (ends _) (List.dropWhile_subset _)

/-- Trimming drops nothing that is not blank. -/
theorem mem_trim_iff (visible : isBlank c = false) : c ∈ t.trim ↔ c ∈ t := by
  obtain ⟨blanks, split, blank⟩ := exists_trimEnd t.trimStart
  have front : c ∉ t.indent := fun mem => by
    cases visible.symm.trans (List.mem_takeWhile_imp mem)
  have back : c ∉ blanks := fun mem => by
    cases visible.symm.trans (blank c mem)
  conv_rhs => rw [← indent_append_trimStart t, split]
  rw [List.mem_append, List.mem_append, or_iff_right front, or_iff_left back, trim]

/-- Trimming leaves nothing exactly when all is blank. -/
theorem trim_eq_nil_iff : t.trim = [] ↔ ∀ c ∈ t, isBlank c = true := by
  constructor
  · intro empty c mem
    by_contra visible
    rw [Bool.not_eq_true] at visible
    rw [← mem_trim_iff visible, empty] at mem
    cases mem
  · intro blank
    have empty : t.trimStart = [] := List.dropWhile_eq_nil_iff.mpr blank
    rw [trim, empty]
    rfl

end FieldTables.Text
