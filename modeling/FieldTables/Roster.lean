import FieldTables.Text.Basic

/-!
# Rosters

A roster keeps named entries in the order in which they were added, no two of one name. The names
stay distinct by the type itself: an entry whose name is taken cannot be added, and a change that
keeps the names keeps the roster.
-/

namespace FieldTables

/-- What a roster tells apart by its name. -/
class Named (α : Type) where
  /-- The name of an entry. -/
  name : α → Text

/-- Entries in order, with pairwise distinct names. -/
@[ext] structure Roster (α : Type) [Named α] where
  /-- The entries, first added first. -/
  entries : List α
  /-- No two entries share a name. -/
  distinct : (entries.map Named.name).Nodup

namespace Roster

variable {α : Type} [Named α]

instance [DecidableEq α] : DecidableEq (Roster α) := fun r s =>
  decidable_of_iff (r.entries = s.entries) Roster.ext_iff.symm

/-- The roster without entries. -/
def empty : Roster α := ⟨[], .nil⟩

instance : Inhabited (Roster α) := ⟨empty⟩

/-- The names in order. -/
def names (r : Roster α) : List Text := r.entries.map Named.name

/-- The number of entries. -/
def size (r : Roster α) : Nat := r.entries.length

/-- Whether there is no entry. -/
def isEmpty (r : Roster α) : Bool := r.entries.isEmpty

/-- The entry of a name. -/
def find? (r : Roster α) (name : Text) : Option α := r.entries.find? (Named.name · == name)

/-- The entry that was added last. -/
def last? (r : Roster α) : Option α := r.entries.getLast?

private theorem nodup_names_append {entries : List α} {a : α}
    (distinct : (entries.map Named.name).Nodup) (fresh : Named.name a ∉ entries.map Named.name) :
    ((entries ++ [a]).map Named.name).Nodup := by
  rw [List.map_append, List.nodup_append]
  refine ⟨distinct, by simp, ?_⟩
  intro x hx y hy hxy
  simp only [List.map_cons, List.map_nil, List.mem_singleton] at hy
  exact fresh (hy ▸ hxy ▸ hx)

/-- Add an entry at the end, unless its name is taken. -/
def insert? (r : Roster α) (a : α) : Option (Roster α) :=
  if fresh : Named.name a ∉ r.names then
    some ⟨r.entries ++ [a], nodup_names_append r.distinct fresh⟩
  else none

/-- Change every entry and keep every name. -/
def map (r : Roster α) (f : α → α) (keeps : ∀ a, Named.name (f a) = Named.name a) : Roster α where
  entries := r.entries.map f
  distinct := by
    have same : (r.entries.map f).map Named.name = r.entries.map Named.name := by
      simp [Function.comp_def, keeps]
    exact same ▸ r.distinct

/-- Put an entry in the place of the one with its name. -/
def replace (r : Roster α) (a : α) : Roster α :=
  r.map (fun b => if Named.name b = Named.name a then a else b) fun b => by
    by_cases h : Named.name b = Named.name a <;> simp [h]

@[simp] theorem entries_empty : (empty : Roster α).entries = [] := rfl

/-- Adding succeeds exactly when the name is free, and then appends the entry. -/
theorem insert?_eq_some_iff {r s : Roster α} {a : α} :
    r.insert? a = some s ↔ Named.name a ∉ r.names ∧ s.entries = r.entries ++ [a] := by
  unfold insert?
  split
  next fresh => simp [fresh, Roster.ext_iff, eq_comm]
  next taken => simp [taken]

/-- Adding fails exactly when the name is taken. -/
theorem insert?_eq_none_iff {r : Roster α} {a : α} :
    r.insert? a = none ↔ Named.name a ∈ r.names := by
  unfold insert?
  split
  next fresh => simp [fresh]
  next taken => simpa using taken

/-- A change of the entries keeps the names. -/
@[simp] theorem names_map (r : Roster α) (f : α → α)
    (keeps : ∀ a, Named.name (f a) = Named.name a) :
    (r.map f keeps).names = r.names := by
  simp [names, map, Function.comp_def, keeps]

/-- Replacing an entry keeps the names. -/
@[simp] theorem names_replace (r : Roster α) (a : α) : (r.replace a).names = r.names :=
  names_map ..

/-- A name finds its own entry. -/
theorem name_of_find?_eq_some {r : Roster α} {name : Text} {a : α} (h : r.find? name = some a) :
    Named.name a = name := by
  simpa using List.find?_some h

/-- A name is found exactly when an entry has it. -/
theorem isSome_find?_iff {r : Roster α} {name : Text} :
    (r.find? name).isSome = true ↔ name ∈ r.names := by
  simp [find?, names]

/-- Every entry is the one that its name finds. -/
theorem find?_name_of_mem {r : Roster α} {a : α} (h : a ∈ r.entries) :
    r.find? (Named.name a) = some a := by
  have distinct := r.distinct
  unfold find?
  generalize r.entries = entries at h distinct
  induction entries with
  | nil => simp at h
  | cons b rest ih =>
    rw [List.map_cons, List.nodup_cons] at distinct
    rcases List.mem_cons.mp h with rfl | below
    · simp
    · have other : Named.name b ≠ Named.name a := fun same =>
        distinct.1 (same ▸ List.mem_map_of_mem below)
      simp [other, ih below distinct.2]

/-- A name finds exactly the entry that has it. -/
theorem find?_eq_some_iff {r : Roster α} {name : Text} {a : α} :
    r.find? name = some a ↔ a ∈ r.entries ∧ Named.name a = name := by
  constructor
  · intro found
    exact ⟨List.mem_of_find?_eq_some found, name_of_find?_eq_some found⟩
  · rintro ⟨mem, rfl⟩
    exact find?_name_of_mem mem

end Roster

end FieldTables
