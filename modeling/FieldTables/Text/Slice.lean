import FieldTables.Text.Basic

/-!
# Slices

A slice of a text is given by the bytes between which it stands. There is one when these are in
order, lie within the text and in no character. A place at which a text is found in another one is
given by a byte too.
-/

namespace FieldTables

/-- The difference of two numbers, the second of which must not be larger. -/
def minus? (m n : Nat) : Option Nat := if n ≤ m then some (m - n) else none

namespace Text

/-- The parts of a text before and behind a byte, which must not lie behind the end or inside a
character. -/
def splitAt? : Nat → Text → Option (Text × Text)
  | 0, t => some ([], t)
  | _ + 1, [] => none
  | p + 1, c :: rest =>
    if c.utf8Size ≤ p + 1 then
      (splitAt? (p + 1 - c.utf8Size) rest).map fun (front, back) => (c :: front, back)
    else none

/-- The part of a text between two bytes. -/
def slice? (t : Text) (start stop : Nat) : Option Text := do
  let (front, _) ← splitAt? stop t
  let (_, inside) ← splitAt? start front
  return inside

/-- The byte at which a text is first found in another one. -/
def place? (sought : Text) : Text → Option Nat
  | [] => if sought.isEmpty then some 0 else none
  | c :: rest =>
    if sought.isPrefixOf (c :: rest) then some 0
    else (place? sought rest).map (c.utf8Size + ·)

variable {t front inside back : Text} {p start stop : Nat}

/-- Only the empty text takes no bytes. -/
theorem width_eq_zero_iff : t.width = 0 ↔ t = [] := by
  cases t with
  | nil => simp
  | cons c rest =>
    have positive := c.utf8Size_pos
    rw [width_cons]
    exact iff_of_false (by omega) (List.cons_ne_nil c rest)

/-- Nothing stands in front of the first byte. -/
theorem splitAt?_zero_eq_some_iff :
    splitAt? 0 t = some (front, back) ↔ t = front ++ back ∧ front.width = 0 := by
  rw [splitAt?, width_eq_zero_iff]
  constructor
  · rintro ⟨⟩
    exact ⟨rfl, rfl⟩
  · rintro ⟨whole, rfl⟩
    rw [whole, List.nil_append]

/-- What stands in front of another byte starts with the first character. -/
theorem cons_eq_append_iff_of_pos {c : Char} {rest : Text} :
    c :: rest = front ++ back ∧ front.width = p + 1 ↔
      ∃ before : Text, front = c :: before ∧ rest = before ++ back ∧
        c.utf8Size + before.width = p + 1 := by
  constructor
  · rintro ⟨whole, wide⟩
    cases front with
    | nil => cases wide
    | cons d before =>
      cases whole
      exact ⟨before, rfl, rfl, wide⟩
  · rintro ⟨before, rfl, rfl, wide⟩
    exact ⟨rfl, wide⟩

/-- A text is split at a byte exactly when it is put together from parts of which the first one is
so wide. -/
theorem splitAt?_eq_some_iff :
    splitAt? p t = some (front, back) ↔ t = front ++ back ∧ front.width = p := by
  induction t generalizing p front with
  | nil =>
    cases p with
    | zero => exact splitAt?_zero_eq_some_iff
    | succ p =>
      refine iff_of_false nofun ?_
      rintro ⟨whole, wide⟩
      obtain ⟨rfl, rfl⟩ := List.append_eq_nil_iff.mp whole.symm
      cases wide
  | cons c rest ih =>
    cases p with
    | zero => exact splitAt?_zero_eq_some_iff
    | succ p =>
      have positive := c.utf8Size_pos
      rw [splitAt?, cons_eq_append_iff_of_pos]
      split
      next fits =>
        rw [Option.map_eq_some_iff]
        constructor
        · rintro ⟨⟨before, after⟩, found, same⟩
          cases same
          obtain ⟨rfl, wide⟩ := ih.mp found
          exact ⟨before, rfl, rfl, by omega⟩
        · rintro ⟨before, rfl, rfl, wide⟩
          exact ⟨(before, back), ih.mpr ⟨rfl, by omega⟩, rfl⟩
      next within =>
        refine iff_of_false nofun ?_
        rintro ⟨before, -, -, wide⟩
        omega

/-- A slice is what stands between parts of a text, as wide as the bytes say. -/
theorem slice?_eq_some_iff : t.slice? start stop = some inside ↔
    ∃ front back, t = front ++ inside ++ back ∧ front.width = start ∧
      start + inside.width = stop := by
  have parts : t.slice? start stop = some inside ↔ ∃ before back front,
      splitAt? stop t = some (before, back) ∧ splitAt? start before = some (front, inside) := by
    simp [slice?, Option.bind_eq_some_iff]
  simp only [parts, splitAt?_eq_some_iff]
  constructor
  · rintro ⟨_, back, front, ⟨rfl, rfl⟩, rfl, rfl⟩
    exact ⟨front, back, rfl, rfl, (width_append ..).symm⟩
  · rintro ⟨front, back, rfl, rfl, rfl⟩
    exact ⟨front ++ inside, back, front, ⟨rfl, width_append ..⟩, rfl, rfl⟩

/-- A byte of a text, or its end, at which no character is cut. -/
def Boundary (t : Text) (p : Nat) : Prop := ∃ front back, t = front ++ back ∧ front.width = p

/-- There is a slice exactly when its bytes are in order and cut no character. -/
theorem isSome_slice?_iff :
    (t.slice? start stop).isSome = true ↔ start ≤ stop ∧ t.Boundary start ∧ t.Boundary stop := by
  rw [Option.isSome_iff_exists]
  simp only [slice?_eq_some_iff]
  constructor
  · rintro ⟨inside, front, back, rfl, rfl, rfl⟩
    refine ⟨Nat.le_add_right _ _, ⟨front, inside ++ back, List.append_assoc .., rfl⟩,
      ⟨front ++ inside, back, rfl, width_append ..⟩⟩
  · rintro ⟨ordered, ⟨front, rest, rfl, rfl⟩, ⟨longer, back, whole, rfl⟩⟩
    rcases List.append_eq_append_iff.mp whole with ⟨inside, rfl, rfl⟩ | ⟨more, rfl, rfl⟩
    · exact ⟨inside, front, back, (List.append_assoc ..).symm, rfl, (width_append ..).symm⟩
    · rw [width_append] at ordered
      obtain rfl : more = [] := width_eq_zero_iff.mp (by omega)
      exact ⟨[], longer, rest, by simp, by simp, by simp⟩

/-- A slice that leaves something out is shorter than its text. -/
theorem length_lt_of_slice? (slice : t.slice? start stop = some inside) (positive : 0 < start) :
    inside.length < t.length := by
  obtain ⟨front, back, rfl, rfl, -⟩ := slice?_eq_some_iff.mp slice
  cases front with
  | nil => cases positive
  | cons c front =>
    simp only [List.cons_append, List.length_cons, List.length_append]
    omega

/-- What stands in front of a byte. -/
theorem slice?_front (front back : Text) : slice? (front ++ back) 0 front.width = some front :=
  slice?_eq_some_iff.mpr ⟨[], back, rfl, rfl, Nat.zero_add _⟩

/-- What stands behind a byte. -/
theorem slice?_back (front back : Text) :
    slice? (front ++ back) front.width (width (front ++ back)) = some back :=
  slice?_eq_some_iff.mpr ⟨front, [], (List.append_nil _).symm, rfl, (width_append ..).symm⟩

/-- What stands between two bytes. -/
theorem slice?_middle (front inside back : Text) :
    slice? (front ++ (inside ++ back)) front.width (front.width + inside.width) = some inside :=
  slice?_eq_some_iff.mpr ⟨front, back, (List.append_assoc ..).symm, rfl, rfl⟩

end Text

end FieldTables
