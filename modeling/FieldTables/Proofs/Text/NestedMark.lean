import FieldTables.Proofs.Text.Marker

/-!
# Split marks around split marks

Split marks do not overlap, so one pass takes out every one that stands in a text. What is left
holds a split mark exactly where one stood with others between its characters.
-/

namespace FieldTables.Text

variable {s t rest first second before after : Text} {c : Char} {m n p : Nat}

/-- Split marks, one behind the other. -/
def splitMarks : Nat → Text
  | 0 => []
  | n + 1 => splitMark ++ splitMarks n

/-- A split mark with others between its characters. -/
def nestedMark (m n : Nat) : Text :=
  '\u00ef' :: (splitMarks m ++ '\u00bb' :: (splitMarks n ++ ['\u00bf']))

private theorem splitMark_prefix_cons_iff :
    splitMark <+: c :: t ↔ ∃ rest, c = '\u00ef' ∧ t = '\u00bb' :: '\u00bf' :: rest := by
  constructor
  · rintro ⟨rest, same⟩
    cases same
    exact ⟨rest, rfl, rfl⟩
  · rintro ⟨rest, rfl, rfl⟩
    exact ⟨rest, rfl⟩

/-- A character with which no split mark starts is kept. -/
theorem withoutSplitMarks_cons (apart : ¬splitMark <+: c :: t) :
    withoutSplitMarks (c :: t) = c :: withoutSplitMarks t := by
  rw [withoutSplitMarks]
  exact fun rest here behind => apart (splitMark_prefix_cons_iff.mpr ⟨rest, here, behind⟩)

/-- Split marks in front of a text are taken out. -/
theorem withoutSplitMarks_splitMarks (n : Nat) (t : Text) :
    withoutSplitMarks (splitMarks n ++ t) = withoutSplitMarks t := by
  induction n with
  | zero => rfl
  | succ n ih =>
    rw [splitMarks, List.append_assoc, ← ih]
    rfl

/-- From the start of a split mark on, a text is read as if nothing stood in front of it. -/
theorem withoutSplitMarks_append (starts : t.head? = some '\u00ef') :
    withoutSplitMarks (s ++ t) = withoutSplitMarks s ++ withoutSplitMarks t := by
  obtain ⟨behind, rfl⟩ := List.head?_eq_some_iff.mp starts
  fun_induction withoutSplitMarks s with
  | case1 s ih => exact ih
  | case2 c s other ih =>
    -- A split mark that goes on over the seam would have its first character once more in it.
    have apart : ¬splitMark <+: c :: (s ++ '\u00ef' :: behind) := by
      rw [splitMark_prefix_cons_iff]
      rintro ⟨rest, here, same⟩
      rcases s with _ | ⟨d, _ | ⟨e, s⟩⟩
      · simp at same
      · simp at same
      · simp only [List.cons_append, List.cons.injEq] at same
        obtain ⟨rfl, rfl, -⟩ := same
        exact other s here rfl
    rw [List.cons_append, withoutSplitMarks_cons apart, ih]
    rfl
  | case3 => rfl

/-- In front of the first character that is kept stand split marks, and with it none starts. -/
private theorem exists_of_withoutSplitMarks_eq_cons (kept : withoutSplitMarks t = c :: rest) :
    ∃ n behind, t = splitMarks n ++ c :: behind ∧ ¬splitMark <+: c :: behind ∧
      withoutSplitMarks behind = rest := by
  fun_induction withoutSplitMarks t with
  | case1 t ih =>
    obtain ⟨n, behind, rfl, apart, keeps⟩ := ih kept
    exact ⟨n + 1, behind, rfl, apart, keeps⟩
  | case2 d t other ih =>
    obtain ⟨rfl, keeps⟩ := List.cons.inj kept
    refine ⟨0, t, rfl, ?_, keeps⟩
    rw [splitMark_prefix_cons_iff]
    rintro ⟨others, here, behind⟩
    exact other others here behind
  | case3 => cases kept

/-- What is kept in two parts is kept of two parts. -/
private theorem exists_append_of_withoutSplitMarks (kept : withoutSplitMarks t = first ++ second) :
    ∃ front back, t = front ++ back ∧ withoutSplitMarks front = first ∧
      withoutSplitMarks back = second := by
  induction first generalizing t with
  | nil => exact ⟨[], t, rfl, rfl, kept⟩
  | cons c first ih =>
    obtain ⟨n, behind, rfl, apart, keeps⟩ := exists_of_withoutSplitMarks_eq_cons kept
    obtain ⟨front, back, rfl, keepsFront, keepsBack⟩ := ih keeps
    refine ⟨splitMarks n ++ c :: front, back, by simp, ?_, keepsBack⟩
    have apart : ¬splitMark <+: c :: front := fun starts =>
      apart (starts.trans ⟨back, rfl⟩)
    rw [withoutSplitMarks_splitMarks, withoutSplitMarks_cons apart, keepsFront]

/-- Of a split mark with others in it the split mark itself is left. -/
theorem withoutSplitMarks_nestedMark (nested : 0 < m + n) (t : Text) :
    withoutSplitMarks (nestedMark m n ++ t) = splitMark ++ withoutSplitMarks t := by
  have shape : nestedMark m n ++ t =
      '\u00ef' :: (splitMarks m ++ '\u00bb' :: (splitMarks n ++ '\u00bf' :: t)) := by
    simp [nestedMark]
  -- The first character is followed by itself or, behind the second one, by itself.
  have first : ¬splitMark <+:
      '\u00ef' :: (splitMarks m ++ '\u00bb' :: (splitMarks n ++ '\u00bf' :: t)) := by
    rw [splitMark_prefix_cons_iff]
    rintro ⟨rest, -, same⟩
    cases m with
    | zero =>
      cases n with
      | zero => cases nested
      | succ n => simp [splitMarks, splitMark] at same
    | succ m => simp [splitMarks, splitMark] at same
  have second : ¬splitMark <+: '\u00bb' :: (splitMarks n ++ '\u00bf' :: t) := by
    simp [splitMark_prefix_cons_iff]
  have third : ¬splitMark <+: '\u00bf' :: t := by
    simp [splitMark_prefix_cons_iff]
  rw [shape, withoutSplitMarks_cons first, withoutSplitMarks_splitMarks,
    withoutSplitMarks_cons second, withoutSplitMarks_splitMarks, withoutSplitMarks_cons third]
  rfl

/-- A split mark is left exactly where one stood with others in it. -/
theorem withoutSplitMarks_eq_iff : withoutSplitMarks t = before ++ (splitMark ++ after) ↔
    ∃ m n front back, 0 < m + n ∧ t = front ++ (nestedMark m n ++ back) ∧
      withoutSplitMarks front = before ∧ withoutSplitMarks back = after := by
  constructor
  · intro kept
    obtain ⟨front, back, rfl, keepsFront, kept⟩ := exists_append_of_withoutSplitMarks kept
    obtain ⟨k, back, rfl, apart, kept⟩ := exists_of_withoutSplitMarks_eq_cons kept
    obtain ⟨m, back, rfl, -, kept⟩ := exists_of_withoutSplitMarks_eq_cons kept
    obtain ⟨n, back, rfl, -, kept⟩ := exists_of_withoutSplitMarks_eq_cons kept
    refine ⟨m, n, front ++ splitMarks k, back, ?_, by simp [nestedMark], ?_, kept⟩
    · by_contra alone
      obtain ⟨rfl, rfl⟩ : m = 0 ∧ n = 0 := by omega
      exact apart ⟨back, rfl⟩
    · cases k with
      | zero => rw [splitMarks, List.append_nil, keepsFront]
      | succ k =>
        have marks := withoutSplitMarks_splitMarks (k + 1) []
        rw [List.append_nil] at marks
        rw [withoutSplitMarks_append rfl, keepsFront, marks]
        exact List.append_nil _
  · rintro ⟨m, n, front, back, nested, rfl, rfl, rfl⟩
    rw [withoutSplitMarks_append rfl, withoutSplitMarks_nestedMark nested]

/-- Byte-order marks apart, a split mark with others in it stands in a text, behind as many bytes as
are left of what is in front of it. -/
def NestsAt (t : Text) (p : Nat) : Prop :=
  ∃ m n front back, 0 < m + n ∧
    t.filter (· != byteOrderMark) = front ++ (nestedMark m n ++ back) ∧
      (withoutSplitMarks front).width = p

/-- Taking the markers out leaves a split mark exactly where one stood with others in it. -/
theorem nestsAt_iff : t.NestsAt p ↔
    ∃ before after, t.withoutMarkers = before ++ (splitMark ++ after) ∧ before.width = p := by
  simp only [withoutMarkers, withoutSplitMarks_eq_iff]
  constructor
  · rintro ⟨m, n, front, back, nested, split, rfl⟩
    exact ⟨_, _, ⟨m, n, front, back, nested, split, rfl, rfl⟩, rfl⟩
  · rintro ⟨_, _, ⟨m, n, front, back, nested, split, rfl, -⟩, rfl⟩
    exact ⟨m, n, front, back, nested, split, rfl⟩

/-- Taking the markers out leaves no byte-order mark. -/
theorem byteOrderMark_notMem_withoutMarkers (t : Text) : byteOrderMark ∉ t.withoutMarkers := by
  intro mem
  have kept := withoutSplitMarks_subset _ mem
  simp at kept

end FieldTables.Text
