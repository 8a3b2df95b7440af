import FieldTables.Header.Block
import FieldTables.Proofs.Outcome

/-!
# Where fields come from

A header grows by one structure for each block and by one field for each statement in it. So every
field of a header that was read is the field of one of its statements, all of them read with one
vocabulary.
-/

namespace FieldTables

open Outcome

/-- A declaration that gives a field has one name, and the field has what was read. -/
theorem Declaration.eq_of_field {line column : Nat} {d : Declaration} {f : Field}
    (ok : d.field line column = .ok f) :
    ∃ name place, d.names = [(name, place)] ∧ f = { Field.declared name (typeText d.parts) line with
      inner := if d.pointer then none else d.inner
      length := d.length } := by
  unfold Declaration.field at ok
  split at ok
  · cases ok
  next name place names =>
    split at ok
    · cases ok
    split at ok
    · cases ok
    · cases ok
      exact ⟨name, place, names, rfl⟩
  · cases ok

namespace Statement

variable {v : Vocabulary} {s : Statement} {f : Field}

/-- A statement gives a field when it is cut into tokens that read as a declaration. -/
theorem exists_declaration_of_field (ok : s.field v = .ok f) :
    ∃ tokens d, s.tokens = .ok tokens ∧ Declaration.read v {} tokens = .ok d ∧
      d.field s.line s.column = .ok f := by
  obtain ⟨tokens, cut, rest⟩ := bind_eq_ok_iff.mp ok
  cases hread : Declaration.read v {} tokens >>= Declaration.field s.line s.column with
  | error e =>
    rw [hread] at rest
    cases rest
  | ok g =>
    rw [hread] at rest
    cases rest
    obtain ⟨d, read, field⟩ := bind_eq_ok_iff.mp hread
    exact ⟨tokens, d, cut, read, field⟩

/-- The field of a statement is reached by its own name alone. -/
theorem path_of_field (ok : s.field v = .ok f) : f.path = [f.name] := by
  obtain ⟨_, d, _, _, field⟩ := exists_declaration_of_field ok
  obtain ⟨name, place, -, rfl⟩ := d.eq_of_field field
  rfl

/-- The field of a statement stands where the statement does. -/
theorem line_of_field (ok : s.field v = .ok f) : f.line = s.line := by
  obtain ⟨_, d, _, _, field⟩ := exists_declaration_of_field ok
  obtain ⟨name, place, -, rfl⟩ := d.eq_of_field field
  rfl

end Statement

namespace Block

/-- The body of a block is part of the statements that it was cut from. -/
theorem body_subset_of_ofNonempty {statements : List Statement} {blocks : List Block}
    (ok : ofNonempty statements = .ok blocks) {b : Block} (hb : b ∈ blocks) :
    b.body ⊆ statements := by
  induction statements using ofNonempty.induct generalizing blocks with
  | case1 =>
    rw [ofNonempty] at ok
    cases ok
    cases hb
  | case2 s rest opening ih =>
    rw [ofNonempty, if_pos opening] at ok
    obtain ⟨_, _, ok⟩ := bind_eq_ok_iff.mp ok
    obtain ⟨others, below, result⟩ := bind_eq_ok_iff.mp ok
    cases result
    rcases List.mem_cons.mp hb with rfl | hb
    · exact List.Subset.trans (List.takeWhile_subset _) (List.subset_cons_self s rest)
    · have after : rest.dropWhile (fun t => !t.isOpening) ⊆ s :: rest :=
        List.Subset.trans (List.dropWhile_subset _) (List.subset_cons_self s rest)
      exact List.Subset.trans (ih below hb) after
  | case3 s rest other =>
    rw [ofNonempty, if_neg other] at ok
    cases ok

/-- The body of a block is part of the statements of its header. -/
theorem body_subset_of_ofStatements {statements : List Statement} {blocks : List Block}
    (ok : ofStatements statements = .ok blocks) {b : Block} (hb : b ∈ blocks) :
    b.body ⊆ statements :=
  List.Subset.trans (body_subset_of_ofNonempty ok hb) List.filter_sublist.subset

end Block

namespace Header

variable {h grown : Header} {P : Field → Prop}

/-- What holds of each field of a header. -/
def Each (P : Field → Prop) (h : Header) : Prop := ∀ s ∈ h.entries, ∀ f ∈ s.fields.entries, P f

private theorem each_empty : Each P .empty := by
  intro s hs
  cases hs

private theorem Each.of_addStructure {name : Text} {line : Nat} (each : h.Each P)
    (ok : h.addStructure name line = .ok grown) : grown.Each P := by
  unfold addStructure at ok
  split at ok
  next inserted =>
    cases ok
    intro s hs
    rw [(Roster.insert?_eq_some_iff.mp inserted).2, List.mem_append, List.mem_singleton] at hs
    rcases hs with hs | rfl
    · exact each s hs
    · intro f hf
      cases hf
  next => cases ok

private theorem Each.of_addField {f : Field} (each : h.Each P) (hf : P f)
    (ok : h.addField f = .ok grown) : grown.Each P := by
  unfold addField at ok
  split at ok
  next => cases ok
  next s last =>
    split at ok
    next fields inserted =>
      cases ok
      intro t ht g hg
      obtain ⟨old, hold, rfl⟩ := List.mem_map.mp ht
      split at hg
      next =>
        rw [(Roster.insert?_eq_some_iff.mp inserted).2, List.mem_append, List.mem_singleton] at hg
        rcases hg with hg | rfl
        · exact each s (List.mem_of_getLast? last) g hg
        · exact hf
      next => exact each old hold g hg
    next => cases ok

private theorem Each.of_addBlock {v : Vocabulary} {b : Block} (each : h.Each P)
    (body : ∀ s ∈ b.body, ∀ f, s.field v = .ok f → P f) (ok : h.addBlock v b = .ok grown) :
    grown.Each P := by
  obtain ⟨opened, start, rest⟩ := bind_eq_ok_iff.mp ok
  refine foldlM_induction ?_ (each.of_addStructure start) rest
  intro before after s hs kept added
  obtain ⟨f, field, added⟩ := bind_eq_ok_iff.mp added
  exact kept.of_addField (body s hs f field) added

/-- Every field of a header is the field of one of its statements, read with the extra types and
the tags of the header. -/
theorem exists_statement_of_ofStatements {extraTypes : List Text} {statements : List Statement}
    (ok : ofStatements extraTypes statements = .ok h) :
    ∃ structures, h.Each fun f =>
      ∃ s ∈ statements, s.field (.extend extraTypes structures) = .ok f := by
  obtain ⟨blocks, cut, rest⟩ := bind_eq_ok_iff.mp ok
  refine ⟨blocks.map Block.name, foldlM_induction ?_ each_empty rest⟩
  intro before after b hb kept added
  refine kept.of_addBlock ?_ added
  intro s hs f field
  exact ⟨s, Block.body_subset_of_ofStatements cut hb hs, field⟩

end Header

end FieldTables
