import FieldTables.Header.Leaves
import FieldTables.Proofs.Nesting.Holding

/-!
# Unfolding a structure

What flattening means, without a table: the ways from a structure down to its leaves, depth first
and in declaration order. A way ends at the first field that holds no structure by value. Each way
gives one flat field, named and reached through all members on it.
-/

namespace FieldTables

/-- A way from a structure down to a leaf. -/
structure Way where
  /-- The fields held by value on the way, outermost first. -/
  outer : List Field
  /-- The leaf at its end. -/
  leaf : Field

namespace Way

/-- A way that starts one structure further out. -/
def extend (f : Field) (w : Way) : Way := { w with outer := f :: w.outer }

/-- All fields on the way, the leaf last. -/
def fields (w : Way) : List Field := w.outer ++ [w.leaf]

/-- The names of the members to follow. -/
def members (w : Way) : List Text := w.fields.map Field.name

/-- The field that the way starts with. -/
def first (w : Way) : Field := w.outer.headD w.leaf

/-- The flat field of a way: its names joined, the place of its first field, and the type of its
leaf. -/
def field (w : Way) : Field where
  name := ['_'].intercalate w.members
  line := w.first.line
  type := w.leaf.type
  inner := none
  length := w.leaf.length
  path := w.members

/-- The leaf as it is seen through all fields on the way. -/
def seen (w : Way) : Field := w.outer.foldr Field.through w.leaf

@[simp] theorem members_extend (f : Field) (w : Way) :
    (w.extend f).members = f.name :: w.members := rfl

@[simp] theorem leaf_extend (f : Field) (w : Way) : (w.extend f).leaf = w.leaf := rfl

theorem members_ne_nil (w : Way) : w.members ≠ [] := by simp [members, fields]

/-- A leaf that is declared with its own name as path is seen as the flat field of the way. -/
theorem seen_eq_field {w : Way} (leaf : w.leaf.inner = none) (path : w.leaf.path = [w.leaf.name]) :
    w.seen = w.field := by
  obtain ⟨outer, f⟩ := w
  induction outer with
  | nil =>
    obtain ⟨name, line, type, inner, length, fpath⟩ := f
    dsimp only at leaf path
    subst leaf path
    simp [seen, field, members, fields, first]
  | cons g rest ih =>
    have inside := ih leaf path
    change g.through (Way.mk rest f).seen = (Way.extend g ⟨rest, f⟩).field
    rw [inside]
    simp only [Field.through, field, members_extend, leaf_extend,
      List.intercalate_cons_of_ne_nil (members_ne_nil _), List.append_assoc, List.singleton_append]
    rfl

end Way

namespace Header

variable {h : Header}

/-- The ways from the given fields down to leaves, depth first in declaration order. -/
inductive Unfolds (h : Header) : List Field → List Way → Prop
  /-- No fields have no ways. -/
  | nil : h.Unfolds [] []
  /-- A leaf is a way of its own. -/
  | leaf {f : Field} {rest : List Field} {others : List Way} :
      f.inner = none → h.Unfolds rest others → h.Unfolds (f :: rest) (⟨[], f⟩ :: others)
  /-- A field that holds a structure starts every way of that structure. -/
  | nested {f : Field} {rest : List Field} {name : Text} {s : Structure} {below others : List Way} :
      f.inner = some name → h.find? name = some s → h.Unfolds s.fields.entries below →
      h.Unfolds rest others → h.Unfolds (f :: rest) (below.map (Way.extend f) ++ others)

/-- One way from the given fields down to a leaf. -/
inductive Leads (h : Header) : List Field → Way → Prop
  /-- A leaf among the fields. -/
  | leaf {f : Field} {fields : List Field} : f ∈ fields → f.inner = none → h.Leads fields ⟨[], f⟩
  /-- A way from inside the structure that a field holds. -/
  | nested {f : Field} {fields : List Field} {name : Text} {s : Structure} {w : Way} :
      f ∈ fields → f.inner = some name → h.find? name = some s → h.Leads s.fields.entries w →
      h.Leads fields (w.extend f)

/-- Fields have one unfolding only. -/
theorem Unfolds.unique {fields : List Field} {ways others : List Way}
    (unfolds : h.Unfolds fields ways) (again : h.Unfolds fields others) : ways = others := by
  induction unfolds generalizing others with
  | nil =>
    cases again
    rfl
  | leaf hleaf _ ih =>
    cases again with
    | leaf _ rest => rw [ih rest]
    | nested holds => cases hleaf.symm.trans holds
  | nested holds found _ _ ihBelow ihRest =>
    cases again with
    | leaf hleaf => cases holds.symm.trans hleaf
    | nested holds' found' below rest =>
      cases holds.symm.trans holds'
      cases found.symm.trans found'
      rw [ihBelow below, ihRest rest]

/-- More fields have more ways. -/
theorem Leads.mono {fields more : List Field} {w : Way} (leads : h.Leads fields w)
    (sub : fields ⊆ more) : h.Leads more w := by
  cases leads with
  | leaf hf leaf => exact .leaf (sub hf) leaf
  | nested hf holds found inside => exact .nested (sub hf) holds found inside

/-- No fields lead nowhere. -/
theorem not_leads_nil (w : Way) : ¬ h.Leads [] w := by
  intro leads
  cases leads with
  | leaf hf => cases hf
  | nested hf => cases hf

/-- A leaf in front is one way more. -/
theorem leads_cons_leaf {f : Field} {rest : List Field} (leaf : f.inner = none) (w : Way) :
    h.Leads (f :: rest) w ↔ w = ⟨[], f⟩ ∨ h.Leads rest w := by
  constructor
  · intro leads
    cases leads with
    | leaf hf other =>
      rcases List.mem_cons.mp hf with rfl | hf
      · exact .inl rfl
      · exact .inr (.leaf hf other)
    | nested hf holds found inside =>
      rcases List.mem_cons.mp hf with rfl | hf
      · cases leaf.symm.trans holds
      · exact .inr (.nested hf holds found inside)
  · rintro (rfl | leads)
    · exact .leaf List.mem_cons_self leaf
    · exact leads.mono (List.subset_cons_self f rest)

/-- A field in front that holds a structure starts every way of that structure. -/
theorem leads_cons_nested {f : Field} {rest : List Field} {name : Text} {s : Structure}
    (holds : f.inner = some name) (found : h.find? name = some s) (w : Way) :
    h.Leads (f :: rest) w ↔
      (∃ v, h.Leads s.fields.entries v ∧ v.extend f = w) ∨ h.Leads rest w := by
  constructor
  · intro leads
    cases leads with
    | leaf hf leaf =>
      rcases List.mem_cons.mp hf with rfl | hf
      · cases holds.symm.trans leaf
      · exact .inr (.leaf hf leaf)
    | @nested g _ name' t v hf holds' found' inside =>
      rcases List.mem_cons.mp hf with rfl | hf
      · cases holds.symm.trans holds'
        cases found.symm.trans found'
        exact .inl ⟨v, inside, rfl⟩
      · exact .inr (.nested hf holds' found' inside)
  · rintro (⟨v, inside, rfl⟩ | leads)
    · exact .nested List.mem_cons_self holds found inside
    · exact leads.mono (List.subset_cons_self f rest)

/-- An unfolding lists exactly the ways down to leaves. -/
theorem Unfolds.mem_iff_leads {fields : List Field} {ways : List Way}
    (unfolds : h.Unfolds fields ways) (w : Way) : w ∈ ways ↔ h.Leads fields w := by
  induction unfolds generalizing w with
  | nil => exact iff_of_false List.not_mem_nil (not_leads_nil w)
  | leaf leaf _ ih => rw [leads_cons_leaf leaf, List.mem_cons, ih]
  | nested holds found _ _ ihBelow ihRest =>
    rw [leads_cons_nested holds found, List.mem_append, List.mem_map, ihRest]
    simp only [ihBelow]

/-- A way ends at a leaf. -/
theorem Leads.inner_leaf {fields : List Field} {w : Way} (leads : h.Leads fields w) :
    w.leaf.inner = none := by
  induction leads with
  | leaf _ leaf => exact leaf
  | nested _ _ _ _ ih => exact ih

end Header

end FieldTables
