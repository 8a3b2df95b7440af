import FieldTables.Proofs.Nesting.Search

/-!
# When a header can be laid out flat

A header is accepted exactly when all its structures have fields, all structures held by value are
declared, and none holds itself. Of the reasons against a header, the first empty structure comes
before the first reference that is undeclared, and that before a cycle.
-/

namespace FieldTables.Header

variable {h : Header}

/-- Every field of the structure that holds another one holds a declared one. -/
def ResolvedIn (h : Header) (fields : List Field) : Prop :=
  ∀ f ∈ fields, ∀ name, f.inner = some name → name ∈ h.names

/-- The reason against a header that comes first. -/
inductive FirstFault (h : Header) : Error → Prop
  /-- A structure is empty, and none before it is. -/
  | empty {before after : List Structure} {s : Structure} :
      h.entries = before ++ s :: after →
      (∀ t ∈ before, t.fields.entries ≠ []) → s.fields.entries = [] →
      h.FirstFault (.emptyStructure s.name)
  /-- No structure is empty, a field holds an undeclared structure, and no field before it does. -/
  | unresolved {before after : List Structure} {s : Structure} {prior later : List Field}
      {f : Field} {name : Text} :
      h.Full → h.entries = before ++ s :: after → s.fields.entries = prior ++ f :: later →
      (∀ t ∈ before, h.ResolvedIn t.fields.entries) → h.ResolvedIn prior →
      f.inner = some name → name ∉ h.names →
      h.FirstFault (.unresolvedReference s.name f.name name)
  /-- No structure is empty, all that are held are declared, and one holds itself. -/
  | cyclic {chain : List Text} :
      h.Full → h.Closed → h.IsCycle chain → h.FirstFault (.recursiveNesting chain)

/-- Every structure held by value is declared when this holds of the fields of each structure. -/
theorem closed_iff_resolvedIn : h.Closed ↔ ∀ s ∈ h.entries, h.ResolvedIn s.fields.entries := by
  constructor
  · intro closed s hs f hf name holds
    exact closed s.name name ⟨s, hs, rfl, f, hf, holds⟩
  · rintro resolved outer inner ⟨s, hs, -, f, hf, holds⟩
    exact resolved s hs f hf inner holds

private theorem isEmpty_fields_iff {s : Structure} :
    s.fields.isEmpty = true ↔ s.fields.entries = [] := List.isEmpty_iff

/-- No empty structure is reported exactly when there is none. -/
theorem emptyStructure?_eq_none_iff : h.emptyStructure? = none ↔ h.Full := by
  rw [emptyStructure?, Option.map_eq_none_iff, List.find?_eq_none]
  simp only [isEmpty_fields_iff, Full, ne_eq]

/-- The empty structure that is reported is the first one. -/
theorem firstFault_of_emptyStructure? {e : Error} (found : h.emptyStructure? = some e) :
    h.FirstFault e := by
  obtain ⟨s, first, rfl⟩ := Option.map_eq_some_iff.mp found
  obtain ⟨empty, before, after, split, full⟩ := List.find?_eq_some_iff_append.mp first
  refine .empty split ?_ (isEmpty_fields_iff.mp empty)
  intro t ht bare
  have filled := full t ht
  rw [isEmpty_fields_iff.mpr bare] at filled
  cases filled

/-- What is reported of one field. -/
private def fault? (h : Header) (s : Structure) (f : Field) : Option Error :=
  match f.inner with
  | some name =>
    if (h.find? name).isNone then some (.unresolvedReference s.name f.name name) else none
  | none => none

private theorem unresolved?_eq :
    h.unresolved? = h.entries.findSome? fun s => s.fields.entries.findSome? (h.fault? s) := rfl

private theorem isNone_find?_iff {name : Text} :
    (h.find? name).isNone = true ↔ name ∉ h.names := by
  rw [← Roster.isSome_find?_iff]
  cases h.find? name <;> simp

private theorem fault?_eq_some_iff {s : Structure} {f : Field} {e : Error} :
    h.fault? s f = some e ↔
      ∃ name, f.inner = some name ∧ name ∉ h.names ∧
        e = .unresolvedReference s.name f.name name := by
  unfold fault?
  cases f.inner with
  | none => simp only [reduceCtorEq, false_and, exists_false]
  | some name =>
    simp only [isNone_find?_iff, Option.some.injEq, exists_eq_left']
    by_cases declared : name ∈ h.names
    · simp [declared]
    · simp [declared, eq_comm]

private theorem findSome?_fault?_eq_none_iff {s : Structure} {fields : List Field} :
    fields.findSome? (h.fault? s) = none ↔ h.ResolvedIn fields := by
  rw [List.findSome?_eq_none_iff]
  apply forall₂_congr
  intro f _
  simp only [Option.eq_none_iff_forall_ne_some, ne_eq, fault?_eq_some_iff, not_exists, not_and]
  constructor
  · intro silent name holds
    by_contra undeclared
    exact silent _ name holds undeclared rfl
  · intro resolved _ name holds undeclared
    exact absurd (resolved name holds) undeclared

/-- No undeclared structure is reported exactly when none is held. -/
theorem unresolved?_eq_none_iff : h.unresolved? = none ↔ h.Closed := by
  rw [unresolved?_eq, List.findSome?_eq_none_iff, closed_iff_resolvedIn]
  simp only [findSome?_fault?_eq_none_iff]

/-- The reference that is reported is the first one that is undeclared. -/
theorem firstFault_of_unresolved? {e : Error} (full : h.Full) (found : h.unresolved? = some e) :
    h.FirstFault e := by
  rw [unresolved?_eq] at found
  obtain ⟨before, s, after, split, here, earlier⟩ := List.findSome?_eq_some_iff.mp found
  obtain ⟨prior, f, later, fields, fault, silent⟩ := List.findSome?_eq_some_iff.mp here
  obtain ⟨name, holds, undeclared, rfl⟩ := fault?_eq_some_iff.mp fault
  refine .unresolved full split fields ?_ ?_ holds undeclared
  · exact fun t ht => findSome?_fault?_eq_none_iff.mp (earlier t ht)
  · exact findSome?_fault?_eq_none_iff.mp (List.findSome?_eq_none_iff.mpr silent)

/-- The verdict on a header comes from the first of its three checks that reports something. -/
private theorem verify_cases (h : Header) :
    (∃ e, h.emptyStructure? = some e ∧ h.verify = .error e) ∨
    (h.Full ∧ ∃ e, h.unresolved? = some e ∧ h.verify = .error e) ∨
    (h.Full ∧ h.Closed ∧
      ∃ chain, h.search [] h.names [] = .error chain ∧
        h.verify = .error (.recursiveNesting chain)) ∨
    (h.Full ∧ h.Closed ∧ ∃ done, h.search [] h.names [] = .ok done ∧ h.verify = .ok ()) := by
  cases hempty : h.emptyStructure? with
  | some e => exact .inl ⟨e, rfl, by rw [verify, hempty]; rfl⟩
  | none =>
    refine .inr ?_
    have full := emptyStructure?_eq_none_iff.mp hempty
    cases hunresolved : h.unresolved? with
    | some e => exact .inl ⟨full, e, rfl, by rw [verify, hempty, hunresolved]; rfl⟩
    | none =>
      refine .inr ?_
      have closed := unresolved?_eq_none_iff.mp hunresolved
      cases result : h.search [] h.names [] with
      | error chain =>
        exact .inl ⟨full, closed, chain, rfl, by simp [verify, hempty, hunresolved, result]⟩
      | ok done =>
        exact .inr ⟨full, closed, done, rfl, by simp [verify, hempty, hunresolved, result]⟩

/-- A header is refused for the first fault that it has. -/
theorem firstFault_of_verify {e : Error} (refused : h.verify = .error e) : h.FirstFault e := by
  rcases verify_cases h with ⟨e', hempty, verdict⟩ | ⟨full, e', hunresolved, verdict⟩ |
    ⟨full, closed, chain, failed, verdict⟩ | ⟨_, _, _, _, verdict⟩
  · cases refused.symm.trans verdict
    exact firstFault_of_emptyStructure? hempty
  · cases refused.symm.trans verdict
    exact firstFault_of_unresolved? full hunresolved
  · cases refused.symm.trans verdict
    exact .cyclic full closed (isCycle_of_search (.start _) failed)
  · cases refused.symm.trans verdict

/-- A fault of a header breaks one of the three conditions. -/
theorem FirstFault.not_layable {e : Error} (fault : h.FirstFault e) :
    ¬ (h.Full ∧ h.Closed ∧ h.Acyclic) := by
  rintro ⟨full, closed, acyclic⟩
  cases fault with
  | @empty before after s split _ empty =>
    have hs : s ∈ h.entries := split ▸ List.mem_append_right before List.mem_cons_self
    exact full s hs empty
  | @unresolved before after s prior later f name _ split fields _ _ holds undeclared =>
    have hs : s ∈ h.entries := split ▸ List.mem_append_right before List.mem_cons_self
    have hf : f ∈ s.fields.entries := fields ▸ List.mem_append_right prior List.mem_cons_self
    exact undeclared (closed_iff_resolvedIn.mp closed s hs f hf name holds)
  | cyclic _ _ cycle => exact cycle.not_acyclic acyclic

/-- A header is accepted exactly when its structures have fields, hold declared structures and do
not hold themselves. -/
theorem verify_eq_ok_iff : h.verify = .ok () ↔ h.Full ∧ h.Closed ∧ h.Acyclic := by
  constructor
  · intro accepted
    rcases verify_cases h with ⟨_, _, verdict⟩ | ⟨_, _, _, verdict⟩ | ⟨_, _, _, _, verdict⟩ |
      ⟨full, closed, done, result, _⟩
    · cases accepted.symm.trans verdict
    · cases accepted.symm.trans verdict
    · cases accepted.symm.trans verdict
    · exact ⟨full, closed, (search_isOk_iff_acyclic closed).mp ⟨done, result⟩⟩
  · intro layable
    cases result : h.verify with
    | ok _ => rfl
    | error e => exact absurd layable (firstFault_of_verify result).not_layable

/-- A header is accepted exactly when it can be laid out flat, and otherwise refused for its first
fault. -/
theorem verify_decides_layout (h : Header) :
    (h.verify = .ok () ↔ h.Full ∧ h.Closed ∧ h.Acyclic) ∧
      ∀ e, h.verify = .error e → h.FirstFault e :=
  ⟨verify_eq_ok_iff, fun _ refused => firstFault_of_verify refused⟩

end FieldTables.Header
