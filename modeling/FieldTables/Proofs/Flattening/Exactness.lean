import FieldTables.Proofs.Flattening.Table
import Mathlib.Data.List.Forall2
import Mathlib.Data.List.Nodup

/-!
# A flat header lists the ways of its structures

Flattening keeps the structures with their order, names and lines, and puts in the place of their
fields one field for each way down to a leaf. Nothing is dropped, repeated or reordered.
-/

namespace FieldTables.Header

open Outcome

variable {h flat : Header}

/-- Each field is reached by its own name alone, as it is when a header has just been read. -/
def Declared (h : Header) : Prop :=
  ∀ s ∈ h.entries, ∀ f ∈ s.fields.entries, f.path = [f.name]

instance (h : Header) : Decidable h.Declared :=
  inferInstanceAs (Decidable (∀ s ∈ h.entries, ∀ f ∈ s.fields.entries, f.path = [f.name]))

/-- A flat header has every structure in its place, with the leaves that its ways lead to. -/
theorem forall₂_of_flatten (ok : h.flatten = .ok flat) :
    List.Forall₂ (fun s t => s ∈ h.entries ∧ t.name = s.name ∧ t.line = s.line ∧
      ∃ ways, h.Unfolds s.fields.entries ways ∧ t.fields.entries = ways.map Way.seen)
      h.entries flat.entries := by
  obtain ⟨_, accepted, rest⟩ := bind_eq_ok_iff.mp ok
  obtain ⟨table, tabulated, result⟩ := bind_eq_ok_iff.mp rest
  cases result
  obtain ⟨-, closed, acyclic⟩ := verify_eq_ok_iff.mp accepted
  obtain ⟨sound, -, all⟩ :=
    sound_of_tabulate_all closed acyclic (List.Subset.refl _) .nil tabulated
  rw [Roster.map, List.forall₂_map_right_iff, List.forall₂_same]
  intro s hs
  obtain ⟨leaves, hleaves⟩ := Option.isSome_iff_exists.mp (all s hs)
  obtain ⟨s', ways, found, unfolds, entries⟩ := sound s.name leaves hleaves
  obtain rfl : s = s' := Option.some.inj ((Roster.find?_name_of_mem hs).symm.trans found)
  refine ⟨hs, rfl, rfl, ways, unfolds, ?_⟩
  rw [hleaves]
  exact entries

/-- Every structure of a flat header has the leaves of the structure whose place it takes. -/
theorem exists_unfolds_of_flatten (ok : h.flatten = .ok flat) {t : Structure}
    (ht : t ∈ flat.entries) :
    ∃ s ∈ h.entries, t.name = s.name ∧ t.line = s.line ∧
      ∃ ways, h.Unfolds s.fields.entries ways ∧ t.fields.entries = ways.map Way.seen := by
  obtain ⟨s, -, pair⟩ := exists_of_mem_right (forall₂_of_flatten ok) ht
  exact ⟨s, pair⟩

/-- Fields lead somewhere when there are any, and every structure has one. -/
theorem Unfolds.ne_nil {fields : List Field} {ways : List Way} (unfolds : h.Unfolds fields ways)
    (full : h.Full) (nonempty : fields ≠ []) : ways ≠ [] := by
  induction unfolds with
  | nil => exact absurd rfl nonempty
  | leaf => exact List.cons_ne_nil _ _
  | nested _ found _ _ ihBelow _ =>
    have below := ihBelow (full _ (List.mem_of_find?_eq_some found))
    exact fun empty => below (List.map_eq_nil_iff.mp (List.append_eq_nil_iff.mp empty).1)

/-- Every structure of a flat header has a field. -/
theorem full_of_flatten (ok : h.flatten = .ok flat) : flat.Full := by
  obtain ⟨_, accepted, -⟩ := bind_eq_ok_iff.mp ok
  obtain ⟨full, -, -⟩ := verify_eq_ok_iff.mp accepted
  intro t ht
  obtain ⟨s, hs, -, -, ways, unfolds, entries⟩ := exists_unfolds_of_flatten ok ht
  rw [entries, ne_eq, List.map_eq_nil_iff]
  exact unfolds.ne_nil full (full _ hs)

/-- A way from the fields of a declared structure ends at a declared field. -/
theorem Leads.leaf_declared {fields : List Field} {w : Way} (leads : h.Leads fields w)
    (inside : ∃ s ∈ h.entries, fields = s.fields.entries) :
    ∃ s ∈ h.entries, w.leaf ∈ s.fields.entries := by
  induction leads with
  | leaf hf _ =>
    obtain ⟨s, hs, rfl⟩ := inside
    exact ⟨s, hs, hf⟩
  | nested _ _ found _ ih => exact ih ⟨_, List.mem_of_find?_eq_some found, rfl⟩

/-- The leaves that declared fields lead to are seen as the flat fields of their ways. -/
theorem map_seen_eq_map_field (declared : h.Declared) {s : Structure} (hs : s ∈ h.entries)
    {ways : List Way} (unfolds : h.Unfolds s.fields.entries ways) :
    ways.map Way.seen = ways.map Way.field := by
  apply List.map_congr_left
  intro w hw
  have leads := (unfolds.mem_iff_leads w).mp hw
  obtain ⟨t, ht, leaf⟩ := leads.leaf_declared ⟨s, hs, rfl⟩
  exact Way.seen_eq_field leads.inner_leaf (declared t ht w.leaf leaf)

/-- Every structure of a flat header has the flat fields of the ways of the structure whose name it
keeps. -/
theorem exists_ways_of_flatten (declared : h.Declared) (ok : h.flatten = .ok flat) {t : Structure}
    (ht : t ∈ flat.entries) :
    ∃ s ∈ h.entries, t.name = s.name ∧
      ∃ ways, h.Unfolds s.fields.entries ways ∧ t.fields.entries = ways.map Way.field := by
  obtain ⟨s, hs, name, -, ways, unfolds, entries⟩ := exists_unfolds_of_flatten ok ht
  rw [map_seen_eq_map_field declared hs unfolds] at entries
  exact ⟨s, hs, name, ways, unfolds, entries⟩

/-- The type whose size a field takes is decided by its type and its array length. -/
theorem sizedType_congr {f g : Field} (type : f.type = g.type) (length : f.length = g.length) :
    f.sizedType = g.sizedType := by
  rw [Field.sizedType, Field.sizedType, type, length]

/-- Flat fields have the types and array lengths of the declared leaves, so what these alone decide
holds of some flat field exactly when it holds of some declared leaf. -/
theorem exists_flat_iff (declared : h.Declared) (ok : h.flatten = .ok flat) {P : Field → Prop}
    (own : ∀ f g : Field, f.type = g.type → f.length = g.length → P f → P g) :
    (∃ t ∈ flat.entries, ∃ f ∈ t.fields.entries, P f) ↔
      ∃ s ∈ h.entries, ∃ f ∈ s.fields.entries, f.inner = none ∧ P f := by
  constructor
  · rintro ⟨t, ht, f, hf, holds⟩
    obtain ⟨s, hs, -, ways, unfolds, entries⟩ := exists_ways_of_flatten declared ok ht
    rw [entries] at hf
    obtain ⟨w, listed, rfl⟩ := List.mem_map.mp hf
    have leads := (unfolds.mem_iff_leads w).mp listed
    obtain ⟨owner, inside, leaf⟩ := leads.leaf_declared ⟨s, hs, rfl⟩
    exact ⟨owner, inside, w.leaf, leaf, leads.inner_leaf, own w.field w.leaf rfl rfl holds⟩
  · rintro ⟨s, hs, f, hf, leaf, holds⟩
    obtain ⟨t, ht, -, -, -, ways, unfolds, entries⟩ := exists_of_mem_left (forall₂_of_flatten ok) hs
    rw [map_seen_eq_map_field declared hs unfolds] at entries
    have listed : Way.field ⟨[], f⟩ ∈ t.fields.entries :=
      entries ▸ List.mem_map_of_mem ((unfolds.mem_iff_leads _).mpr (.leaf hf leaf))
    exact ⟨t, ht, _, listed, own f _ rfl rfl holds⟩

/-- What a structure of a header becomes when the header is flattened. -/
structure FlattensTo (h : Header) (s t : Structure) : Prop where
  /-- The name stays. -/
  name : t.name = s.name
  /-- The line stays. -/
  line : t.line = s.line
  /-- The fields are the flat fields of the ways down to leaves: the only unfolding there is lists
  them, it lists every way, and none twice. -/
  fields : ∃ ways, h.Unfolds s.fields.entries ways ∧
    (∀ others, h.Unfolds s.fields.entries others → others = ways) ∧
    (∀ w, w ∈ ways ↔ h.Leads s.fields.entries w) ∧ (ways.map Way.members).Nodup ∧
    t.fields.entries = ways.map Way.field

/-- The flat fields of a structure have distinct paths, since their names are distinct. -/
theorem nodup_members {t : Structure} {ways : List Way}
    (fields : t.fields.entries = ways.map Way.field) : (ways.map Way.members).Nodup := by
  have distinct := t.fields.distinct
  rw [fields, List.map_map] at distinct
  refine List.Nodup.of_map (['_'].intercalate ·) ?_
  rw [List.map_map]
  exact distinct

/-- A flat header has the same structures in the same order, each with exactly the fields that its
ways down to leaves give. -/
theorem flatten_lists_ways (declared : h.Declared) (ok : h.flatten = .ok flat) :
    List.Forall₂ h.FlattensTo h.entries flat.entries := by
  refine (forall₂_of_flatten ok).imp ?_
  rintro s t ⟨hs, name, line, ways, unfolds, entries⟩
  rw [map_seen_eq_map_field declared hs unfolds] at entries
  have once := nodup_members entries
  exact ⟨name, line, ways, unfolds, fun _ again => again.unique unfolds, unfolds.mem_iff_leads,
    once, entries⟩

/-- A header with a structure two levels deep, declared before the structures that it holds. -/
def inodeHeader : Header where
  entries :=
    [{ name := "inode".toList, line := 1, fields :=
        ⟨[{ Field.declared "atime".toList "struct time".toList 2 with
              inner := some "time".toList },
          Field.declared "size".toList "long".toList 3], by decide⟩ },
     { name := "time".toList, line := 5, fields :=
        ⟨[{ Field.declared "at".toList "struct stamp".toList 6 with
              inner := some "stamp".toList },
          { Field.declared "zone".toList "char".toList 7 with length := some "4".toList }],
          by decide⟩ },
     { name := "stamp".toList, line := 9, fields :=
        ⟨[Field.declared "sec".toList "long".toList 10], by decide⟩ }]
  distinct := by decide

theorem flatten_lists_ways_inodeHeader :
    inodeHeader.Declared ∧ ∃ flat, inodeHeader.flatten = .ok flat ∧
      List.Forall₂ inodeHeader.FlattensTo inodeHeader.entries flat.entries ∧
      flat.entries.map (fun s => s.fields.names.map String.ofList) =
        [["atime_at_sec", "atime_zone", "size"], ["at_sec", "zone"], ["sec"]] := by
  have declared : inodeHeader.Declared := by decide
  have names : inodeHeader.flatten.toOption.map (fun flat => flat.entries.map fun s =>
      s.fields.names.map String.ofList) =
        some [["atime_at_sec", "atime_zone", "size"], ["at_sec", "zone"], ["sec"]] := by
    decide +kernel
  cases ok : inodeHeader.flatten with
  | error e =>
    rw [ok] at names
    cases names
  | ok flat =>
    rw [ok] at names
    exact ⟨declared, flat, rfl, flatten_lists_ways declared ok, Option.some.inj names⟩

end FieldTables.Header
