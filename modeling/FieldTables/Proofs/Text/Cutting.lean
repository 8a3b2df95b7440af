import FieldTables.Artifact.Enumeration
import FieldTables.Proofs.Text.Name

/-!
# Cutting a text

A text is cut into lines, lines into paragraphs at the empty ones, and a list of entries at their
separator. What was put together from parts is cut into these parts again as long as no part holds
what stands between them.
-/

namespace FieldTables

/-- What is put together with one element between each two parts is cut at this element into what
each part is cut into. -/
theorem splitOn_intercalate_eq_flatMap {α : Type} [BEq α] [LawfulBEq α] (x : α)
    {parts : List (List α)} (nonempty : parts ≠ []) :
    ([x].intercalate parts).splitOn x = parts.flatMap (List.splitOn x) := by
  induction parts with
  | nil => exact absurd rfl nonempty
  | cons part rest ih =>
    cases rest with
    | nil => simp
    | cons next others =>
      rw [List.intercalate_cons_cons, List.append_assoc, List.singleton_append,
        List.splitOn_append_cons_self, ih (List.cons_ne_nil _ _)]
      exact List.flatMap_cons.symm

/-- Blocks that each end with an element that no block holds are cut apart at this element. -/
theorem splitOn_flatMap_append {α : Type} [BEq α] [LawfulBEq α] (x : α) {blocks : List (List α)}
    (free : ∀ block ∈ blocks, x ∉ block) (rest : List α) :
    (blocks.flatMap (· ++ [x]) ++ rest).splitOn x = blocks ++ rest.splitOn x := by
  induction blocks with
  | nil => rfl
  | cons block others ih =>
    obtain ⟨here, below⟩ := List.forall_mem_cons.mp free
    rw [List.flatMap_cons, List.append_assoc, List.append_assoc, List.singleton_append,
      List.splitOn_append_cons_self_of_not_mem here, ih below, List.cons_append]

namespace Text

variable {s t : Text}

/-- The lines of a text. -/
def lines (t : Text) : List Text := t.splitOn '\n'

/-- The runs of lines between empty lines. -/
def paragraphs (t : Text) : List (List Text) := t.lines.splitOn []

/-- No line of the text is empty. -/
def Solid (t : Text) : Prop := [] ∉ t.lines

theorem lines_nil : lines [] = [[]] := List.splitOn_nil _

theorem lines_of_oneLine (line : t.OneLine) : t.lines = [t] := List.splitOn_eq_singleton line

theorem lines_append (s t : Text) : lines (s ++ '\n' :: t) = s.lines ++ t.lines :=
  List.splitOn_append_cons_self s t

/-- Parts that are put together with line feeds have the lines of all parts. -/
theorem lines_intercalate {parts : List Text} (nonempty : parts ≠ []) :
    lines (['\n'].intercalate parts) = parts.flatMap lines :=
  splitOn_intercalate_eq_flatMap '\n' nonempty

theorem solid_of_oneLine (line : t.OneLine) (nonempty : t ≠ []) : t.Solid := by
  rw [Solid, lines_of_oneLine line, List.mem_singleton]
  exact nonempty.symm

theorem Solid.append (first : s.Solid) (second : t.Solid) : Solid (s ++ '\n' :: t) := by
  rw [Solid, lines_append]
  exact fun mem => (List.mem_append.mp mem).elim first second

theorem dropPrefix?_append (front t : Text) : (front ++ t).dropPrefix? front = some t :=
  List.dropPrefix?_append_of_beq t (beq_self_eq_true front)

theorem dropSuffix?_append {α : Type} [BEq α] [LawfulBEq α] (t back : List α) :
    (t ++ back).dropSuffix? back = some t :=
  List.dropSuffix?_eq_some_iff.mpr ⟨back, rfl, beq_self_eq_true back⟩

/-- The text between a front and a back. -/
def between? (front back t : Text) : Option Text := do
  let rest ← t.dropPrefix? front
  rest.dropSuffix? back

theorem between?_append (front t back : Text) :
    between? front back (front ++ t ++ back) = some t := by
  rw [between?, List.append_assoc, dropPrefix?_append]
  exact dropSuffix?_append t back

/-- The pieces of a text between the places where a separator stands, found from left to right. -/
def splitBy (separator : Text) : Text → List Text
  | [] => [[]]
  | c :: rest =>
    if separator.isPrefixOf (c :: rest) then
      [] :: splitBy separator (rest.drop (separator.length - 1))
    else (splitBy separator rest).modifyHead (c :: ·)
  termination_by t => t.length
  decreasing_by all_goals simp only [List.length_drop, List.length_cons]; omega

/-- The separator of entries stands in no text on one line, nor does it start in one and end
behind it. -/
private theorem not_isPrefixOf_entrySeparator {c : Char} (line : OneLine (c :: t)) (rest : Text)
    (after : rest.head? ≠ some '\n') : entrySeparator.isPrefixOf (c :: (t ++ rest)) = false := by
  rw [← Bool.not_eq_true, List.isPrefixOf_iff_prefix]
  rintro ⟨others, same⟩
  have shape : ',' :: '\n' :: '\t' :: others = c :: (t ++ rest) := same
  obtain ⟨-, shape⟩ := List.cons.inj shape
  cases t with
  | nil => exact after (by rw [← List.nil_append rest, ← shape]; rfl)
  | cons d t =>
    obtain ⟨feed, -⟩ := List.cons.inj shape
    exact line (by simp [← feed])

theorem splitBy_entrySeparator (line : t.OneLine) : splitBy entrySeparator t = [t] := by
  induction t with
  | nil => rw [splitBy]
  | cons c t ih =>
    have apart := not_isPrefixOf_entrySeparator line [] nofun
    rw [List.append_nil] at apart
    rw [splitBy, apart, if_neg Bool.false_ne_true, ih (line.of_subset (List.subset_cons_self c t))]
    rfl

theorem splitBy_append_entrySeparator (line : t.OneLine) (rest : Text) :
    splitBy entrySeparator (t ++ (entrySeparator ++ rest)) = t :: splitBy entrySeparator rest := by
  induction t with
  | nil =>
    have step : entrySeparator ++ rest = ',' :: '\n' :: '\t' :: rest := rfl
    rw [List.nil_append, step, splitBy, ← step,
      if_pos (List.isPrefixOf_iff_prefix.mpr (List.prefix_append ..))]
    rfl
  | cons c t ih =>
    have comma : (entrySeparator ++ rest).head? = some ',' := rfl
    have apart := not_isPrefixOf_entrySeparator line (entrySeparator ++ rest) (by simp [comma])
    rw [List.cons_append, splitBy, apart, if_neg Bool.false_ne_true,
      ih (line.of_subset (List.subset_cons_self c t))]
    rfl

/-- Entries on lines of their own are cut apart at their separators. -/
theorem splitBy_intercalate {entries : List Text} (nonempty : entries ≠ [])
    (lines : ∀ entry ∈ entries, entry.OneLine) :
    splitBy entrySeparator (entrySeparator.intercalate entries) = entries := by
  induction entries with
  | nil => exact absurd rfl nonempty
  | cons entry rest ih =>
    obtain ⟨here, below⟩ := List.forall_mem_cons.mp lines
    cases rest with
    | nil => rw [List.intercalate_singleton, splitBy_entrySeparator here]
    | cons next others =>
      rw [List.intercalate_cons_cons, List.append_assoc, splitBy_append_entrySeparator here,
        ih (List.cons_ne_nil _ _) below]

/-- Entries with their separators and a tab in front fill their lines. -/
theorem solid_entries {entries : List Text} (nonempty : entries ≠ [])
    (lines : ∀ entry ∈ entries, entry.OneLine) :
    Solid ('\t' :: entrySeparator.intercalate entries) := by
  induction entries with
  | nil => exact absurd rfl nonempty
  | cons entry rest ih =>
    obtain ⟨here, below⟩ := List.forall_mem_cons.mp lines
    unfold OneLine at here
    cases rest with
    | nil =>
      rw [List.intercalate_singleton]
      exact solid_of_oneLine (by simp [OneLine, here]) (List.cons_ne_nil _ _)
    | cons next others =>
      have first : Solid ('\t' :: entry ++ [',']) :=
        solid_of_oneLine (by simp [OneLine, here]) (List.cons_ne_nil _ _)
      have whole := first.append (ih (List.cons_ne_nil _ _) below)
      rw [List.intercalate_cons_cons]
      simpa [entrySeparator] using whole

/-- A name is read up to what cannot go on with it. -/
theorem takeWhile_name (name : t.IsName) {c : Char} (other : isNameCharacter c = false)
    (rest : Text) : (t ++ c :: rest).takeWhile isNameCharacter = t := by
  rw [List.takeWhile_append_of_pos name, List.takeWhile_cons_of_neg (by simp [other]),
    List.append_nil]

theorem dropWhile_name (name : t.IsName) {c : Char} (other : isNameCharacter c = false)
    (rest : Text) : (t ++ c :: rest).dropWhile isNameCharacter = c :: rest := by
  rw [List.dropWhile_append_of_pos name, List.dropWhile_cons_of_neg (by simp [other])]

end Text

end FieldTables
