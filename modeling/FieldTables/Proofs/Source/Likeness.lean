import FieldTables.Proofs.Source.Classification

/-!
# Statements that are read alike

A statement that stands on the same line as another one, and has the lexemes of that one, is read in
the same way. So a header is read again from statements that are like its own, one by one.
-/

namespace FieldTables

open Outcome Text

namespace Statement

variable {v : Vocabulary} {s s' : Statement} {f : Field} {tag : Text}
  {statements others : List Statement}

/-- A statement is read like another one: it stands on the same line, it is empty or an opening
together with it, and it is cut into its lexemes. -/
structure Alike (s s' : Statement) : Prop where
  line : s'.line = s.line
  empty : s'.text.isEmpty = s.text.isEmpty
  opening : s'.isOpening = s.isOpening
  lexemes : ∀ ls, Lexed s.text ls → Lexed s'.text ls

theorem Alike.refl (s : Statement) : s.Alike s := ⟨rfl, rfl, rfl, fun _ => id⟩

theorem Alike.opens (alike : s.Alike s') (opens : s.Opens tag) : s'.Opens tag :=
  opens_iff.mpr (alike.lexemes _ (opens_iff.mp opens))

theorem Alike.field (alike : s.Alike s') (ok : s.field v = .ok f) : s'.field v = .ok f := by
  obtain ⟨ls, d, lexed, reads, gives⟩ := field_eq_ok_iff.mp ok
  exact field_eq_ok_iff.mpr ⟨ls, d, alike.lexemes ls lexed, reads, alike.line.symm ▸ gives⟩

/-- Statements that are read alike are kept by tests that do not tell them apart. -/
private theorem forall₂_filter {p : Statement → Bool} (same : ∀ s s', Alike s s' → p s' = p s)
    (alike : List.Forall₂ Alike statements others) :
    List.Forall₂ Alike (statements.filter p) (others.filter p) := by
  induction alike with
  | nil => exact .nil
  | @cons s s' _ _ here _ ih =>
    rw [List.filter_cons, List.filter_cons, same s s' here]
    split
    · exact .cons here ih
    · exact ih

/-- Statements that are read alike have their first openings in the same place. -/
private theorem forall₂_lead (alike : List.Forall₂ Alike statements others) :
    List.Forall₂ Alike (lead statements) (lead others) := by
  induction alike with
  | nil => exact .nil
  | @cons s s' _ _ here _ ih =>
    rw [lead, lead, List.takeWhile_cons, List.takeWhile_cons, here.opening]
    split
    · exact .cons here ih
    · exact .nil

end Statement

namespace Segment

open Statement

variable {v : Vocabulary} {g g' : Segment} {s : Structure} {statements others : List Statement}

/-- Segments with statements that are read alike. -/
structure Alike (g g' : Segment) : Prop where
  opener : g.opener.Alike g'.opener
  body : List.Forall₂ Statement.Alike g.body g'.body

/-- Statements that are read alike are cut into segments that are. -/
theorem forall₂_ofStatements (alike : List.Forall₂ Statement.Alike statements others) :
    List.Forall₂ Alike (ofStatements statements) (ofStatements others) := by
  induction alike with
  | nil => exact .nil
  | @cons s s' _ _ here below ih =>
    rw [ofStatements, ofStatements]
    by_cases opens : s.isOpening = true
    · rw [dif_pos opens, dif_pos (here.opening.trans opens)]
      exact .cons ⟨here, forall₂_lead below⟩ ih
    · rw [dif_neg opens, dif_neg fun same => opens (here.opening.symm.trans same)]
      exact ih

/-- A segment becomes what a segment becomes that is read alike. -/
theorem Alike.becomes (alike : g.Alike g') (becomes : g.Becomes v s) : g'.Becomes v s := by
  obtain ⟨tag, line, fields⟩ := becomes
  refine ⟨alike.opener.opens tag, line.trans alike.opener.line.symm, ?_⟩
  have declarations : List.Forall₂ Statement.Alike g.declarations g'.declarations :=
    forall₂_filter (fun s s' here => congrArg (!·) here.empty) alike.body
  refine forall₂_trans ?_ declarations.flip fields
  rintro d' d f here ⟨field, same⟩
  exact ⟨here.field field, same.trans here.line.symm⟩

end Segment

namespace Header

variable {extraTypes : List Text} {statements others : List Statement} {h : Header}

/-- A header is read from statements that are read like its own. -/
theorem ofStatements_of_alike (alike : List.Forall₂ Statement.Alike statements others)
    (ok : ofStatements extraTypes statements = .ok h) : ofStatements extraTypes others = .ok h := by
  obtain ⟨lead, becomes⟩ := ofStatements_eq_ok_iff_becomes.mp ok
  refine ofStatements_eq_ok_iff_becomes.mpr ⟨fun s' mem => ?_, ?_⟩
  · obtain ⟨s, listed, here⟩ := exists_of_mem_right (Statement.forall₂_lead alike) mem
    have empty := here.empty
    rw [lead s listed] at empty
    exact List.isEmpty_iff.mp empty
  · have segments := Segment.forall₂_ofStatements alike
    exact forall₂_trans (fun g' g s here becomes => here.becomes becomes) segments.flip becomes

/-- Every statement of a header is cut into lexemes. -/
theorem exists_lexed_of_ofStatements (ok : ofStatements extraTypes statements = .ok h) :
    ∀ s ∈ statements, ∃ ls, Lexed s.text ls := by
  obtain ⟨lead, becomes⟩ := ofStatements_eq_ok_iff_becomes.mp ok
  rw [← Segment.lead_append_flatMap statements, List.forall_mem_append]
  refine ⟨fun s mem => ⟨[], (lead s mem).symm ▸ .nil⟩, fun s mem => ?_⟩
  obtain ⟨g, listed, within⟩ := List.mem_flatMap.mp mem
  obtain ⟨t, -, tag, -, fields⟩ := exists_of_mem_left becomes listed
  rcases List.mem_cons.mp within with rfl | inside
  · exact ⟨_, Statement.opens_iff.mp tag⟩
  · by_cases full : s.text = []
    · exact ⟨[], full.symm ▸ .nil⟩
    · have declared : s ∈ g.declarations := List.mem_filter.mpr ⟨inside, by simpa using full⟩
      obtain ⟨f, -, field, -⟩ := exists_of_mem_left fields declared
      obtain ⟨ls, d, lexed, -⟩ := Statement.field_eq_ok_iff.mp field
      exact ⟨ls, lexed⟩

end Header

end FieldTables
