import FieldTables.Proofs.Source.Reading

/-!
# Segments

A segment of statements opens one structure and declares its fields. Reading a sequence of segments
succeeds exactly when each segment declares a structure for itself, with the tags of all of them in
view, and no tag comes twice.
-/

namespace FieldTables

open Outcome

/-- A stretch of statements that opens one structure, at its start. -/
structure Segment where
  /-- The statement that opens the structure. -/
  opener : Statement
  /-- The statements that follow. -/
  body : List Statement
  /-- The first statement is an opening. -/
  opens : opener.isOpening = true
  /-- No other statement is. -/
  plain : ∀ s ∈ body, s.isOpening = false

namespace Segment

/-- All statements of a segment. -/
def statements (g : Segment) : List Statement := g.opener :: g.body

/-- The statements that declare fields: those that are not empty. -/
def declarations (g : Segment) : List Statement := g.body.filter fun s => !s.text.isEmpty

/-- The block that a segment is cut into. -/
structure Cuts (g : Segment) (b : Block) : Prop where
  /-- The tag stands in the opening. -/
  tag : g.opener.openedTag = .ok b.name
  /-- The block stands where it is opened. -/
  line : b.line = g.opener.line
  /-- Empty statements are left out. -/
  body : b.body = g.declarations

/-- The structure that a segment declares, for some meaning of words. -/
structure Declares (v : Vocabulary) (g : Segment) (s : Structure) : Prop where
  /-- The tag stands in the opening. -/
  tag : g.opener.openedTag = .ok s.name
  /-- The structure stands where it is opened. -/
  line : s.line = g.opener.line
  /-- There is one field for each declaration, in order. -/
  fields : List.Forall₂ (fun d f => Statement.field v d = .ok f) g.declarations s.fields.entries

private theorem opener_nonempty (g : Segment) : (!g.opener.text.isEmpty) = true := by
  have opens := g.opens
  cases text : g.opener.text with
  | nil => simp [Statement.isOpening, text] at opens
  | cons c rest => rfl

/-- The statements of a sequence of segments that are not empty. -/
private def nonempty (segments : List Segment) : List Statement :=
  (segments.flatMap statements).filter fun s => !s.text.isEmpty

/-- Without its empty statements, a sequence of segments starts with the opening and the
declarations of the first one. -/
private theorem nonempty_cons (g : Segment) (rest : List Segment) :
    nonempty (g :: rest) = g.opener :: (g.declarations ++ nonempty rest) := by
  rw [nonempty, List.flatMap_cons, statements, List.filter_append,
    List.filter_cons_of_pos (p := fun s : Statement => !s.text.isEmpty) g.opener_nonempty]
  rfl

/-- Behind the declarations of a segment stands an opening, if anything. -/
private theorem plain_prefix (g : Segment) (rest : List Segment) :
    (g.declarations ++ nonempty rest).takeWhile (fun s => !s.isOpening) = g.declarations ∧
      (g.declarations ++ nonempty rest).dropWhile (fun s => !s.isOpening) = nonempty rest := by
  have plain : ∀ s ∈ g.declarations, (!s.isOpening) = true := fun s mem => by
    rw [g.plain s (List.mem_of_mem_filter mem), Bool.not_false]
  rw [List.takeWhile_append_of_pos plain, List.dropWhile_append_of_pos plain]
  cases rest with
  | nil => exact ⟨List.append_nil _, rfl⟩
  | cons next others =>
    have stops : ¬(!next.opener.isOpening) = true := by rw [next.opens]; decide
    rw [nonempty_cons, List.takeWhile_cons_of_neg (p := fun s : Statement => !s.isOpening) stops,
      List.dropWhile_cons_of_neg (p := fun s : Statement => !s.isOpening) stops, List.append_nil]
    exact ⟨rfl, rfl⟩

/-- A sequence of segments is cut into one block for each. -/
theorem blocks_eq_ok_iff {segments : List Segment} {blocks : List Block} :
    Block.ofStatements (segments.flatMap statements) = .ok blocks ↔
      List.Forall₂ Cuts segments blocks := by
  change Block.ofNonempty (nonempty segments) = .ok blocks ↔ _
  induction segments generalizing blocks with
  | nil => simp [nonempty, Block.ofNonempty, eq_comm]
  | cons g rest ih =>
    obtain ⟨taken, dropped⟩ := g.plain_prefix rest
    rw [nonempty_cons, Block.ofNonempty, if_pos g.opens, bind_eq_ok_iff, taken, dropped]
    simp only [bind_eq_ok_iff, ih]
    constructor
    · rintro ⟨tag, here, others, below, result⟩
      cases result
      exact .cons ⟨here, rfl, rfl⟩ below
    · intro cut
      obtain ⟨⟨name, line, body⟩, others, ⟨tag, rfl, rfl⟩, below, rfl⟩ :=
        List.forall₂_cons_left_iff.mp cut
      exact ⟨name, tag, others, below, rfl⟩

end Segment

/-- A sequence of segments declares one structure for each, with the tags of all of them, if no tag
comes twice. -/
theorem Header.ofSegments_eq_ok_iff {extraTypes : List Text} {segments : List Segment}
    {h : Header} :
    Header.ofStatements extraTypes (segments.flatMap Segment.statements) = .ok h ↔
      List.Forall₂ (Segment.Declares (.extend extraTypes h.names)) segments h.entries := by
  rw [Header.ofStatements_eq_ok_iff]
  simp only [Segment.blocks_eq_ok_iff]
  generalize Vocabulary.extend extraTypes h.names = v
  generalize h.entries = structures
  constructor
  · rintro ⟨blocks, cut, read⟩
    induction cut generalizing structures with
    | nil =>
      cases read
      exact .nil
    | cons here _ ih =>
      obtain ⟨s, others, ⟨name, line, fields⟩, below, rfl⟩ := List.forall₂_cons_left_iff.mp read
      exact .cons ⟨name ▸ here.tag, line.trans here.line, here.body ▸ fields⟩ (ih others below)
  · intro declared
    induction declared with
    | nil => exact ⟨[], .nil, .nil⟩
    | @cons g s _ _ here _ ih =>
      obtain ⟨blocks, cut, read⟩ := ih
      exact ⟨⟨s.name, g.opener.line, g.declarations⟩ :: blocks, .cons ⟨here.tag, rfl, rfl⟩ cut,
        .cons ⟨rfl, here.line, here.fields⟩ read⟩

end FieldTables
