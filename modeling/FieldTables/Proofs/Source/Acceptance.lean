import FieldTables.Proofs.Source.Segment
import Mathlib.Data.List.TakeWhile

/-!
# Which statements are read as a header

Any statements are cut at their openings into those before the first one and one segment for each.
They are read as a header exactly when those before are empty, each opening is the keyword, a tag
and a brace, no tag comes twice, every other statement declares a field with the tags of all
openings in view, and no name comes twice between two openings. The header then has one structure
for each segment and one field for each statement in it that is not empty, in order and each in its
place.
-/

namespace FieldTables

open Outcome

namespace Statement

/-- A statement that opens a structure: its tokens are the keyword, the tag and a brace. -/
def Opens (s : Statement) (tag : Text) : Prop :=
  ∃ first second third, s.tokens =
    .ok [⟨.word structKeyword, first⟩, ⟨.word tag, second⟩, ⟨.brace, third⟩]

/-- The tag that is opened stands between the keyword and the brace. -/
theorem openedTag_eq_ok_iff {s : Statement} {tag : Text} : s.openedTag = .ok tag ↔ s.Opens tag := by
  constructor
  · intro ok
    obtain ⟨tokens, cut, shaped⟩ := bind_eq_ok_iff.mp ok
    split at shaped
    next keyword name lexemes =>
      obtain ⟨⟨_, first⟩, ⟨_, second⟩, ⟨_, third⟩, rfl, rfl, rfl, rfl⟩ :=
        exists_of_map_eq_three lexemes
      split at shaped
      next same =>
        cases shaped
        exact ⟨first, second, third, same ▸ cut⟩
      next => cases shaped
    next => cases shaped
  · rintro ⟨first, second, third, cut⟩
    refine bind_eq_ok_iff.mpr ⟨_, cut, ?_⟩
    exact if_pos rfl

/-- The statements before the first opening. -/
def lead (statements : List Statement) : List Statement :=
  statements.takeWhile fun s => !s.isOpening

/-- No opening stands before the first one. -/
theorem isOpening_of_mem_lead {statements : List Statement} {s : Statement}
    (mem : s ∈ lead statements) : s.isOpening = false := by
  simpa using List.mem_takeWhile_imp mem

end Statement

namespace Segment

variable {v : Vocabulary} {g : Segment} {s : Structure}

/-- The segments of statements: from each opening up to the next one. -/
def ofStatements : List Statement → List Segment
  | [] => []
  | s :: rest =>
    if opens : s.isOpening = true then
      ⟨s, Statement.lead rest, opens, fun _ => Statement.isOpening_of_mem_lead⟩ :: ofStatements rest
    else ofStatements rest

/-- Those before the first opening and the segments are all statements, in order. -/
theorem lead_append_flatMap (statements : List Statement) :
    Statement.lead statements ++ (ofStatements statements).flatMap Segment.statements =
      statements := by
  induction statements with
  | nil => rfl
  | cons s rest ih =>
    rw [ofStatements, Statement.lead]
    split
    next opens =>
      rw [List.takeWhile_cons_of_neg (by simp [opens]), List.flatMap_cons, List.nil_append]
      exact congrArg (s :: ·) ih
    next plain =>
      rw [List.takeWhile_cons_of_pos (by simpa using plain)]
      exact congrArg (s :: ·) ih

/-- Each opening starts a segment, in order. -/
theorem map_opener_ofStatements (statements : List Statement) :
    (ofStatements statements).map opener = statements.filter Statement.isOpening := by
  induction statements with
  | nil => rfl
  | cons s rest ih =>
    rw [ofStatements]
    split
    next opens => rw [List.map_cons, ih, List.filter_cons_of_pos opens]
    next plain => rw [ih, List.filter_cons_of_neg plain]

/-- The statements that are neither empty nor openings are those before the first opening and the
declarations of segments. -/
theorem forall_plain_iff {P : Statement → Prop} {statements : List Statement} :
    (∀ s ∈ statements, s.isOpening = false → s.text ≠ [] → P s) ↔
      (∀ s ∈ Statement.lead statements, s.text ≠ [] → P s) ∧
        ∀ g ∈ ofStatements statements, ∀ s ∈ g.declarations, P s := by
  constructor
  · intro plain
    rw [← lead_append_flatMap statements, List.forall_mem_append] at plain
    refine ⟨fun s mem => plain.1 s mem (Statement.isOpening_of_mem_lead mem), fun g hg s hs => ?_⟩
    obtain ⟨mem, full⟩ := List.mem_filter.mp hs
    exact plain.2 s (List.mem_flatMap.mpr ⟨g, hg, List.mem_cons_of_mem _ mem⟩) (g.plain s mem)
      (by simpa using full)
  · rintro ⟨before, inside⟩
    rw [← lead_append_flatMap statements, List.forall_mem_append]
    refine ⟨fun s mem _ => before s mem, fun s mem closed full => ?_⟩
    obtain ⟨g, hg, mem⟩ := List.mem_flatMap.mp mem
    rcases List.mem_cons.mp mem with rfl | mem
    · cases g.opens.symm.trans closed
    · exact inside g hg s (List.mem_filter.mpr ⟨mem, by simpa using full⟩)

/-- The structure that a segment becomes: it has the tag and the line of the opening, and for each
declaration the field that it declares, on the line of the declaration. -/
structure Becomes (v : Vocabulary) (g : Segment) (s : Structure) : Prop where
  /-- The tag stands in the opening. -/
  tag : g.opener.Opens s.name
  /-- The structure stands where it is opened. -/
  line : s.line = g.opener.line
  /-- There is one field for each declaration, in order and in its place. -/
  fields : List.Forall₂ (fun d f => Statement.field v d = .ok f ∧ f.line = d.line) g.declarations
    s.fields.entries

/-- A segment becomes the structure that it declares. -/
theorem becomes_iff_declares : g.Becomes v s ↔ g.Declares v s := by
  constructor
  · rintro ⟨tag, line, fields⟩
    exact ⟨Statement.openedTag_eq_ok_iff.mpr tag, line, fields.imp fun d f here => here.1⟩
  · rintro ⟨tag, line, fields⟩
    exact ⟨Statement.openedTag_eq_ok_iff.mp tag, line,
      fields.imp fun d f field => ⟨field, Statement.line_of_field field⟩⟩

/-- Two statements do not declare one name. -/
def Differ (v : Vocabulary) (d d' : Statement) : Prop :=
  ∀ f f', d.field v = .ok f → d'.field v = .ok f' → f.name ≠ f'.name

/-- The fields of statements have distinct names when no two statements declare one name. -/
private theorem nodup_names_iff {statements : List Statement} {fields : List Field}
    (declared : List.Forall₂ (fun d f => Statement.field v d = .ok f) statements fields) :
    (fields.map Named.name).Nodup ↔ statements.Pairwise (Differ v) := by
  induction declared with
  | nil => exact iff_of_true List.nodup_nil .nil
  | @cons d f rest others here below ih =>
    rw [List.map_cons, List.nodup_cons, List.pairwise_cons, ih]
    refine and_congr_left fun _ => ?_
    constructor
    · intro fresh d' mem f₁ f' field field' same
      obtain ⟨f₂, listed, there⟩ := exists_of_mem_left below mem
      cases here.symm.trans field
      cases there.symm.trans field'
      exact fresh (List.mem_map.mpr ⟨f', listed, same.symm⟩)
    · intro differ taken
      obtain ⟨f', listed, same⟩ := List.mem_map.mp taken
      obtain ⟨d', mem, there⟩ := exists_of_mem_right below listed
      exact differ d' mem f f' here there same.symm

/-- A segment becomes a structure of some tag when the tag is opened, each declaration gives a field
and no name comes twice. -/
theorem exists_becomes_iff {tag : Text} :
    (∃ s : Structure, g.Becomes v s ∧ Named.name s = tag) ↔
      g.opener.Opens tag ∧ (∀ d ∈ g.declarations, ∃ f, d.field v = .ok f) ∧
        g.declarations.Pairwise (Differ v) := by
  simp only [becomes_iff_declares, ← exists_forall₂_iff]
  constructor
  · rintro ⟨s, ⟨opened, -, fields⟩, rfl⟩
    exact ⟨Statement.openedTag_eq_ok_iff.mp opened, ⟨_, fields⟩,
      (nodup_names_iff fields).mp s.fields.distinct⟩
  · rintro ⟨opened, ⟨fields, declared⟩, differ⟩
    exact ⟨⟨tag, g.opener.line, fields, (nodup_names_iff declared).mpr differ⟩,
      ⟨Statement.openedTag_eq_ok_iff.mpr opened, rfl, declared⟩, rfl⟩

end Segment

/-- Statements that can be read as a header whose structures have the given tags. -/
structure Readable (extraTypes : List Text) (statements : List Statement) (tags : List Text) :
    Prop where
  /-- Before the first opening all statements are empty. -/
  lead : ∀ s ∈ Statement.lead statements, s.text = []
  /-- Each opening is the keyword, a tag and a brace. -/
  openings : List.Forall₂ Statement.Opens (statements.filter Statement.isOpening) tags
  /-- No tag comes twice. -/
  distinct : tags.Nodup
  /-- Every other statement that is not empty declares a field, with all tags in view. -/
  fields : ∀ s ∈ statements, s.isOpening = false → s.text ≠ [] →
    ∃ f, s.field (.extend extraTypes tags) = .ok f
  /-- No name comes twice between two openings. -/
  names : ∀ g ∈ Segment.ofStatements statements,
    g.declarations.Pairwise (Segment.Differ (.extend extraTypes tags))

namespace Header

variable {extraTypes : List Text} {statements : List Statement} {h : Header}

/-- Statements are cut into blocks when those before the first opening are empty and the segments
are cut into the blocks. -/
private theorem cut_eq_ok_iff (statements : List Statement) {blocks : List Block} :
    Block.ofStatements statements = .ok blocks ↔ (∀ s ∈ Statement.lead statements, s.text = []) ∧
      Block.ofStatements ((Segment.ofStatements statements).flatMap Segment.statements) =
        .ok blocks := by
  conv_lhs => rw [← Segment.lead_append_flatMap statements]
  rw [Block.ofStatements, Block.ofStatements, List.filter_append]
  cases before : (Statement.lead statements).filter fun s => !s.text.isEmpty with
  | nil =>
    rw [List.nil_append, iff_and_self]
    rintro - s mem
    simpa using List.filter_eq_nil_iff.mp before s mem
  | cons s rest =>
    have first : s ∈ (Statement.lead statements).filter fun s => !s.text.isEmpty :=
      before ▸ List.mem_cons_self
    obtain ⟨mem, full⟩ := List.mem_filter.mp first
    rw [List.cons_append, Block.ofNonempty, if_neg (by simp [Statement.isOpening_of_mem_lead mem])]
    refine iff_of_false (by rintro ⟨⟩) ?_
    rintro ⟨empty, -⟩
    simp [empty s mem] at full

/-- Statements are read as a header when those before the first opening are empty and the segments
become its structures. -/
theorem ofStatements_eq_ok_iff_becomes :
    ofStatements extraTypes statements = .ok h ↔ (∀ s ∈ Statement.lead statements, s.text = []) ∧
      List.Forall₂ (Segment.Becomes (.extend extraTypes h.names)) (Segment.ofStatements statements)
        h.entries := by
  have becomes : Segment.Becomes (.extend extraTypes h.names) =
      Segment.Declares (.extend extraTypes h.names) :=
    funext₂ fun g s => propext Segment.becomes_iff_declares
  rw [becomes, ← ofSegments_eq_ok_iff, ofStatements_eq_ok_iff, ofStatements_eq_ok_iff]
  simp only [cut_eq_ok_iff statements, and_assoc, exists_and_left]

/-- Statements can be read under some tags exactly when their segments become structures with these
tags, of which none comes twice. -/
theorem readable_iff {tags : List Text} :
    Readable extraTypes statements tags ↔ (∀ s ∈ Statement.lead statements, s.text = []) ∧
      tags.Nodup ∧ ∃ structures, List.Forall₂ (Segment.Becomes (.extend extraTypes tags))
        (Segment.ofStatements statements) structures ∧ structures.map Named.name = tags := by
  rw [exists_forall₂_map_iff]
  simp only [Segment.exists_becomes_iff]
  constructor
  · rintro ⟨lead, openings, distinct, fields, names⟩
    rw [← Segment.map_opener_ofStatements, List.forall₂_map_left_iff] at openings
    have inside := (Segment.forall_plain_iff.mp fields).2
    have each : ∀ g ∈ Segment.ofStatements statements,
        (∀ d ∈ g.declarations, ∃ f, d.field (.extend extraTypes tags) = .ok f) ∧
          g.declarations.Pairwise (Segment.Differ (.extend extraTypes tags)) :=
      fun g mem => ⟨inside g mem, names g mem⟩
    refine ⟨lead, distinct, ?_⟩
    exact ((List.forall₂_and_left _ _).mpr ⟨each, openings⟩).imp fun _ _ => And.symm
  · rintro ⟨lead, distinct, segments⟩
    obtain ⟨each, openings⟩ := (List.forall₂_and_left _ _).mp (segments.imp fun _ _ => And.symm)
    rw [← List.forall₂_map_left_iff, Segment.map_opener_ofStatements] at openings
    refine ⟨lead, openings, distinct, ?_, fun g mem => (each g mem).2⟩
    refine Segment.forall_plain_iff.mpr ⟨?_, fun g mem => (each g mem).1⟩
    exact fun s mem full => absurd (lead s mem) full

/-- All statements stand before the first opening or in segments. They are read as a header exactly
when they can be read under the tags that they open, and that header has those tags and one
structure for each segment, in order. -/
theorem ofStatements_decides_reading (extraTypes : List Text) (statements : List Statement) :
    Statement.lead statements ++ (Segment.ofStatements statements).flatMap Segment.statements =
        statements ∧
      ((∃ h, ofStatements extraTypes statements = .ok h) ↔
        ∃ tags, Readable extraTypes statements tags) ∧
      ∀ h, ofStatements extraTypes statements = .ok h ↔
        Readable extraTypes statements h.names ∧
          List.Forall₂ (Segment.Becomes (.extend extraTypes h.names))
            (Segment.ofStatements statements) h.entries := by
  have read_iff : ∀ h, ofStatements extraTypes statements = .ok h ↔
      Readable extraTypes statements h.names ∧
        List.Forall₂ (Segment.Becomes (.extend extraTypes h.names))
          (Segment.ofStatements statements) h.entries := by
    intro h
    rw [ofStatements_eq_ok_iff_becomes, readable_iff]
    constructor
    · rintro ⟨lead, becomes⟩
      exact ⟨⟨lead, h.distinct, h.entries, becomes, rfl⟩, becomes⟩
    · rintro ⟨⟨lead, -⟩, becomes⟩
      exact ⟨lead, becomes⟩
  refine ⟨Segment.lead_append_flatMap statements, ⟨?_, ?_⟩, read_iff⟩
  · rintro ⟨h, ok⟩
    exact ⟨h.names, ((read_iff h).mp ok).1⟩
  · rintro ⟨tags, readable⟩
    obtain ⟨lead, distinct, structures, becomes, rfl⟩ := readable_iff.mp readable
    exact ⟨⟨structures, distinct⟩, (read_iff _).mpr ⟨readable, becomes⟩⟩

end Header

end FieldTables
