import FieldTables.Text.Line
import Mathlib.Data.List.Infix

/-!
# Texts without encoding markers

A text without markers is left as it is, and it stays without them when text that has none, and that
takes part in none at its ends, is put in.
-/

namespace FieldTables.Text

/-- The characters that a byte-order mark gives when it is read byte by byte. -/
def splitMark : Text := ['\u00ef', '\u00bb', '\u00bf']

variable {s t gap : Text} {c : Char}

/-- A text holds no encoding marker. -/
structure Unmarked (t : Text) : Prop where
  whole : byteOrderMark ∉ t
  split : ¬splitMark <:+: t

instance : Decidable (Unmarked t) :=
  decidable_of_iff (byteOrderMark ∉ t ∧ ¬splitMark <:+: t)
    ⟨fun ⟨whole, split⟩ => ⟨whole, split⟩, fun ⟨whole, split⟩ => ⟨whole, split⟩⟩

theorem Unmarked.of_isInfix (unmarked : t.Unmarked) (within : s <:+: t) : s.Unmarked :=
  ⟨fun mem => unmarked.whole (within.subset mem), fun mark => unmarked.split (mark.trans within)⟩

/-- Nothing is put in the place of a split mark. -/
theorem withoutSplitMarks_subset (t : Text) : withoutSplitMarks t ⊆ t := by
  fun_induction withoutSplitMarks t with
  | case1 rest ih => exact fun c mem => by simp [ih mem]
  | case2 c rest _ ih => exact List.cons_subset_cons c ih
  | case3 => exact List.Subset.refl _

/-- Nothing is put in the place of a marker. -/
theorem withoutMarkers_subset (t : Text) : t.withoutMarkers ⊆ t :=
  List.Subset.trans (withoutSplitMarks_subset _) (List.filter_subset_self _)

/-- A text without markers is kept whole. -/
theorem Unmarked.withoutMarkers (unmarked : t.Unmarked) : t.withoutMarkers = t := by
  have whole : t.filter (· != byteOrderMark) = t := List.filter_eq_self.mpr fun c mem => by
    rw [bne_iff_ne]
    rintro rfl
    exact unmarked.whole mem
  have split : ∀ t : Text, ¬splitMark <:+: t → withoutSplitMarks t = t := by
    intro t free
    fun_induction withoutSplitMarks t with
    | case1 rest => exact absurd ⟨[], rest, rfl⟩ free
    | case2 c rest _ ih =>
      rw [ih fun within => free (within.trans (List.suffix_cons c rest).isInfix)]
    | case3 => rfl
  rw [Text.withoutMarkers, whole, split t unmarked.split]

/-- A mark stands on one side of a character that is no part of it. -/
private theorem splitMark_infix_of_not_mem (other : c ∉ splitMark)
    (mark : splitMark <:+: s ++ c :: t) : splitMark <:+: s ∨ splitMark <:+: t := by
  have apart : ∀ {m : Text}, m ≠ [] → m ⊆ splitMark → ¬m <+: c :: t := by
    intro m full part front
    rcases List.prefix_cons_iff.mp front with empty | ⟨rest, rfl, -⟩
    · exact full empty
    · exact other (part List.mem_cons_self)
  rcases List.infix_append_iff_ne_nil.mp mark with
    inside | inside | ⟨first, second, -, full, split, -, front⟩
  · exact .inl inside
  · rcases List.infix_cons_iff.mp inside with front | inside
    · exact absurd front (apart (List.cons_ne_nil _ _) (List.Subset.refl _))
    · exact .inr inside
  · exact absurd front (apart full (split ▸ List.subset_append_right first second))

/-- Texts without markers have none around a character that is part of none. -/
theorem Unmarked.join (front : s.Unmarked) (other : c ∉ byteOrderMark :: splitMark)
    (back : t.Unmarked) : (s ++ c :: t).Unmarked := by
  rw [List.mem_cons, not_or] at other
  refine ⟨fun mem => ?_, fun mark => ?_⟩
  · rcases List.mem_append.mp mem with before | behind
    · exact front.whole before
    · rcases List.mem_cons.mp behind with same | after
      · exact other.1 same.symm
      · exact back.whole after
  · rcases splitMark_infix_of_not_mem other.2 mark with before | after
    · exact front.split before
    · exact back.split after

theorem unmarked_nil : Unmarked [] := ⟨List.not_mem_nil, by decide⟩

theorem Unmarked.append_left (other : ∀ c ∈ gap, c ∉ byteOrderMark :: splitMark)
    (back : t.Unmarked) : Unmarked (gap ++ t) := by
  induction gap with
  | nil => exact back
  | cons c gap ih =>
    obtain ⟨here, later⟩ := List.forall_mem_cons.mp other
    exact unmarked_nil.join here (ih later)

end FieldTables.Text
