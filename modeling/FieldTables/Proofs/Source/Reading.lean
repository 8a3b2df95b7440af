import FieldTables.Proofs.Source.Provenance
import Mathlib.Data.List.Nodup

/-!
# What a header is read from

Reading succeeds exactly when every block can be read for itself, with the tags of all of them, and
no name comes twice. The header then has one structure for each block and one field for each
statement in it, in order. So a header and the blocks that it is read from determine each other, and
nothing is said about how the header grows.
-/

namespace FieldTables

open Outcome

/-- Tokens read alike under vocabularies with the same words. -/
theorem Declaration.read_congr {v v' : Vocabulary} (types : v.types = v'.types)
    (tags : ∀ tag, v.structures.contains tag = v'.structures.contains tag) (d : Declaration)
    (tokens : List Token) : read v d tokens = read v' d tokens := by
  fun_induction read v d tokens
  all_goals conv_rhs => unfold read
  all_goals simp_all

/-- A statement declares the same under vocabularies with the same words. -/
theorem Statement.field_congr {v v' : Vocabulary} (types : v.types = v'.types)
    (tags : ∀ tag, v.structures.contains tag = v'.structures.contains tag) (s : Statement) :
    s.field v = s.field v' := by
  rw [Statement.field, Statement.field]
  simp only [Declaration.read_congr types tags]

/-- What takes the place of the last entry stands last. -/
theorem Roster.entries_replace_last {α : Type} [Named α] {r : Roster α} {before : List α}
    {a b : α} (last : r.entries = before ++ [a]) (same : Named.name b = Named.name a) :
    (r.replace b).entries = before ++ [b] := by
  have distinct := r.distinct
  rw [last, List.map_append, List.nodup_append'] at distinct
  have others : ∀ c ∈ before, Named.name c ≠ Named.name b := fun c mem taken =>
    distinct.2.2 (List.mem_map_of_mem mem) (List.mem_singleton.mpr (taken.trans same))
  have kept : before.map (fun c => if Named.name c = Named.name b then b else c) = before := by
    conv_rhs => rw [← List.map_id before]
    exact List.map_congr_left fun c mem => if_neg (others c mem)
  have whole : (r.replace b).entries =
      r.entries.map (fun c => if Named.name c = Named.name b then b else c) := rfl
  rw [whole, last, List.map_append, kept, List.map_singleton, if_pos same.symm]

/-- An entry is added exactly when a roster with it at the end exists. -/
theorem Roster.exists_insert?_iff {α : Type} [Named α] {r s : Roster α} {a : α} :
    r.insert? a = some s ↔ s.entries = r.entries ++ [a] := by
  rw [Roster.insert?_eq_some_iff, and_iff_right_iff_imp]
  intro entries taken
  have distinct := s.distinct
  rw [entries, List.map_append, List.nodup_append'] at distinct
  exact distinct.2.2 taken List.mem_cons_self

/-- The first entries of a roster make a roster. -/
theorem Roster.exists_entries_eq {α : Type} [Named α] {r : Roster α} {front rest : List α}
    (split : r.entries = front ++ rest) : ∃ s : Roster α, s.entries = front := by
  have distinct := r.distinct
  rw [split, List.map_append] at distinct
  exact ⟨⟨front, (List.nodup_append'.mp distinct).1⟩, rfl⟩

/-- A block declares a structure: the structure has its tag and line, and one field for each of its
statements in order. -/
structure Block.Reads (v : Vocabulary) (b : Block) (s : Structure) : Prop where
  /-- The tag of the structure is that of the block. -/
  name : s.name = b.name
  /-- The structure stands where the block is opened. -/
  line : s.line = b.line
  /-- The fields are those of the statements. -/
  fields : List.Forall₂ (fun d f => Statement.field v d = .ok f) b.body s.fields.entries

namespace Header

variable {v : Vocabulary} {h grown : Header} {before : List Structure} {s : Structure}

/-- A structure is opened exactly when its tag is free, and then stands last without fields. -/
theorem addStructure_eq_ok_iff {name : Text} {line : Nat} :
    h.addStructure name line = .ok grown ↔
      grown.entries = h.entries ++ [{ name := name, line := line, fields := .empty }] := by
  have inserts : h.addStructure name line = .ok grown ↔
      h.insert? { name := name, line := line, fields := .empty } = some grown := by
    unfold addStructure
    split
    next found => simp [found]
    next found => simp [found]
  rw [inserts, Roster.exists_insert?_iff]

/-- A field is added to the last structure exactly when its name is free there. -/
theorem addField_eq_ok_iff {f : Field} (last : h.entries = before ++ [s]) :
    h.addField f = .ok grown ↔
      ∃ t : Structure, t.name = s.name ∧ t.line = s.line ∧
        t.fields.entries = s.fields.entries ++ [f] ∧ grown.entries = before ++ [t] := by
  have found : h.last? = some s := by rw [Roster.last?, last, List.getLast?_concat]
  simp only [addField, found]
  cases inserted : s.fields.insert? f with
  | none =>
    refine iff_of_false (by simp) ?_
    rintro ⟨t, -, -, fields, -⟩
    cases inserted.symm.trans (Roster.exists_insert?_iff.mpr fields)
  | some fields =>
    have entries := Roster.exists_insert?_iff.mp inserted
    have replaced := Roster.entries_replace_last (b := { s with fields := fields }) last rfl
    constructor
    · intro ok
      cases ok
      exact ⟨{ s with fields := fields }, rfl, rfl, entries, replaced⟩
    · rintro ⟨⟨_, _, _⟩, rfl, rfl, same, grows⟩
      cases Roster.ext (same.trans entries.symm)
      exact congrArg Except.ok (Roster.ext (replaced.trans grows.symm))

/-- Fields are added to the last structure exactly when all statements declare fields and no name
comes twice. -/
private theorem addFields_eq_ok_iff {body : List Statement} (last : h.entries = before ++ [s]) :
    body.foldlM (fun h d => do h.addField (← d.field v)) h = .ok grown ↔
      ∃ t : Structure, t.name = s.name ∧ t.line = s.line ∧
        (∃ fields, List.Forall₂ (fun d f => Statement.field v d = .ok f) body fields ∧
          t.fields.entries = s.fields.entries ++ fields) ∧ grown.entries = before ++ [t] := by
  induction body generalizing h s with
  | nil =>
    constructor
    · intro ok
      cases ok
      exact ⟨s, rfl, rfl, ⟨[], .nil, (List.append_nil _).symm⟩, last⟩
    · rintro ⟨⟨_, _, _⟩, rfl, rfl, ⟨fields, empty, same⟩, grows⟩
      cases empty
      cases Roster.ext (same.trans (List.append_nil _))
      exact congrArg Except.ok (Roster.ext (last.trans grows.symm))
  | cons d rest ih =>
    rw [List.foldlM_cons, bind_eq_ok_iff]
    constructor
    · rintro ⟨next, first, others⟩
      obtain ⟨f, field, added⟩ := bind_eq_ok_iff.mp first
      obtain ⟨t, name, line, here, next_last⟩ := (addField_eq_ok_iff last).mp added
      obtain ⟨u, name', line', ⟨fields, below, all⟩, grows⟩ := (ih next_last).mp others
      refine ⟨u, name'.trans name, line'.trans line, ⟨f :: fields, .cons field below, ?_⟩, grows⟩
      rw [all, here, List.append_assoc, List.singleton_append]
    · rintro ⟨u, name, line, ⟨_, listed, all⟩, grows⟩
      obtain ⟨f, fields, field, below, rfl⟩ := List.forall₂_cons_left_iff.mp listed
      rw [List.append_cons] at all
      obtain ⟨t, name_t, line_t, fields_t⟩ : ∃ t : Structure, t.name = s.name ∧
          t.line = s.line ∧ t.fields.entries = s.fields.entries ++ [f] := by
        obtain ⟨first, entries⟩ := Roster.exists_entries_eq all
        exact ⟨{ s with fields := first }, rfl, rfl, entries⟩
      have tags : ((before ++ [t]).map Named.name).Nodup := by
        have whole := h.distinct
        have same : Named.name t = Named.name s := name_t
        rw [last] at whole
        simpa [same] using whole
      refine ⟨⟨_, tags⟩, bind_eq_ok_iff.mpr ⟨f, field, ?_⟩, (ih rfl).mpr ?_⟩
      · exact (addField_eq_ok_iff last).mpr ⟨t, name_t, line_t, fields_t, rfl⟩
      · rw [← fields_t] at all
        exact ⟨u, name.trans name_t.symm, line.trans line_t.symm, ⟨fields, below, all⟩, grows⟩

/-- A block is added exactly when it declares a structure whose tag is free, and that structure then
stands last. -/
theorem addBlock_eq_ok_iff {b : Block} :
    h.addBlock v b = .ok grown ↔ ∃ s, b.Reads v s ∧ grown.entries = h.entries ++ [s] := by
  rw [addBlock, bind_eq_ok_iff]
  constructor
  · rintro ⟨opened, start, rest⟩
    obtain ⟨t, name, line, ⟨fields, body, all⟩, grows⟩ :=
      (addFields_eq_ok_iff (addStructure_eq_ok_iff.mp start)).mp rest
    rw [Roster.entries_empty, List.nil_append] at all
    exact ⟨t, ⟨name, line, all ▸ body⟩, grows⟩
  · rintro ⟨s, ⟨name, line, body⟩, grows⟩
    obtain ⟨opened, start⟩ : ∃ opened : Header, opened.entries =
        h.entries ++ [({ name := b.name, line := b.line, fields := .empty } : Structure)] := by
      refine ⟨⟨_, ?_⟩, rfl⟩
      have whole := grown.distinct
      rw [grows, List.map_append] at whole
      rw [List.map_append]
      exact (congrArg (fun tag => (h.entries.map Named.name ++ [tag]).Nodup) name).mp whole
    exact ⟨opened, addStructure_eq_ok_iff.mpr start, (addFields_eq_ok_iff start).mpr
      ⟨s, name, line, ⟨_, body, (List.nil_append _).symm⟩, grows⟩⟩

/-- Blocks are added exactly when each declares a structure and no tag comes twice. -/
theorem addBlocks_eq_ok_iff {blocks : List Block} :
    blocks.foldlM (addBlock v) h = .ok grown ↔
      ∃ structures, List.Forall₂ (Block.Reads v) blocks structures ∧
        grown.entries = h.entries ++ structures := by
  induction blocks generalizing h with
  | nil =>
    constructor
    · intro ok
      cases ok
      exact ⟨[], .nil, (List.append_nil _).symm⟩
    · rintro ⟨_, empty, grows⟩
      cases empty
      exact congrArg Except.ok (Roster.ext (grows.trans (List.append_nil _)).symm)
  | cons b rest ih =>
    rw [List.foldlM_cons, bind_eq_ok_iff]
    constructor
    · rintro ⟨next, first, others⟩
      obtain ⟨s, here, next_entries⟩ := addBlock_eq_ok_iff.mp first
      obtain ⟨structures, below, grows⟩ := ih.mp others
      refine ⟨s :: structures, .cons here below, ?_⟩
      rw [grows, next_entries, List.append_assoc, List.singleton_append]
    · rintro ⟨_, listed, grows⟩
      obtain ⟨s, structures, here, below, rfl⟩ := List.forall₂_cons_left_iff.mp listed
      rw [List.append_cons] at grows
      obtain ⟨next, entries⟩ := Roster.exists_entries_eq grows
      rw [← entries] at grows
      exact ⟨next, addBlock_eq_ok_iff.mpr ⟨s, here, entries⟩, ih.mpr ⟨structures, below, grows⟩⟩

/-- Structures have the tags of the blocks that declare them. -/
private theorem names_of_reads {blocks : List Block}
    (listed : List.Forall₂ (Block.Reads v) blocks h.entries) : blocks.map Block.name = h.names := by
  unfold Roster.names
  generalize h.entries = structures at listed
  induction listed with
  | nil => rfl
  | cons here _ ih => rw [List.map_cons, List.map_cons, ih, ← here.name]; rfl

/-- A header is read from statements exactly when they are cut into blocks that declare its
structures, in order, with the tags of the header itself. -/
theorem ofStatements_eq_ok_iff {extraTypes : List Text} {statements : List Statement} :
    ofStatements extraTypes statements = .ok h ↔
      ∃ blocks, Block.ofStatements statements = .ok blocks ∧
        List.Forall₂ (Block.Reads (.extend extraTypes h.names)) blocks h.entries := by
  rw [ofStatements, bind_eq_ok_iff]
  refine exists_congr fun blocks => and_congr_right fun _ => ?_
  rw [addBlocks_eq_ok_iff]
  constructor
  · rintro ⟨structures, listed, entries⟩
    rw [Roster.entries_empty, List.nil_append] at entries
    subst entries
    rwa [names_of_reads listed] at listed
  · intro listed
    rw [names_of_reads listed]
    exact ⟨h.entries, listed, rfl⟩

end Header

end FieldTables
