import FieldTables.Proofs.Flattening.Clash

/-!
# Flattening a flat header

A header is flat when none of its fields holds a structure by value. Flattening gives a flat header
whose structures all have fields, and a flat header of that kind is what flattening makes of it:
each field is a way of its own. So what is flattened once stays as it is, in every part.
-/

namespace FieldTables

/-- A leaf holds no structure, through however many fields it is seen. -/
theorem Way.inner_seen {w : Way} (leaf : w.leaf.inner = none) : w.seen.inner = none := by
  obtain ⟨outer, f⟩ := w
  cases outer with
  | nil => exact leaf
  | cons g rest => rfl

namespace Header

open Relation

variable {h flat : Header}

/-- No field holds a structure by value. -/
def Flat (h : Header) : Prop := ∀ s ∈ h.entries, ∀ f ∈ s.fields.entries, f.inner = none

/-- Leaves are ways of their own. -/
theorem unfolds_of_leaves {fields : List Field} (leaves : ∀ f ∈ fields, f.inner = none) :
    h.Unfolds fields (fields.map (Way.mk [])) := by
  induction fields with
  | nil => exact .nil
  | cons f rest ih =>
    obtain ⟨leaf, others⟩ := List.forall_mem_cons.mp leaves
    exact .leaf leaf (ih others)

namespace Flat

/-- No structure of a flat header holds another one. -/
theorem not_holds (leaves : h.Flat) (outer inner : Text) : ¬ h.Holds outer inner := by
  rintro ⟨s, hs, -, f, hf, holds⟩
  cases (leaves s hs f hf).symm.trans holds

/-- A flat header can be laid out flat when its structures have fields. -/
theorem verify (leaves : h.Flat) (full : h.Full) : h.verify = .ok () := by
  refine verify_eq_ok_iff.mpr ⟨full, ?_, ?_⟩
  · intro outer inner holds
    exact absurd holds (leaves.not_holds outer inner)
  · intro name loop
    obtain ⟨inner, holds, -⟩ := TransGen.head'_iff.mp loop
    exact leaves.not_holds name inner holds

/-- A structure of a flat header is its own flat structure. -/
theorem flatOf_self (leaves : h.Flat) {s : Structure} (hs : s ∈ h.entries) : h.FlatOf s s := by
  refine ⟨rfl, rfl, _, unfolds_of_leaves (leaves s hs), ?_⟩
  rw [List.map_map]
  exact (List.map_id _).symm

/-- Flattening leaves a flat header as it is. -/
theorem flatten (leaves : h.Flat) (full : h.Full) : h.flatten = .ok h := by
  refine flatten_eq_ok_iff.mpr ⟨leaves.verify full, ?_⟩
  exact List.forall₂_same.mpr fun s hs => leaves.flatOf_self hs

end Flat

/-- Flattening gives a flat header. -/
theorem flat_of_flatten (ok : h.flatten = .ok flat) : flat.Flat := by
  intro t ht f hf
  obtain ⟨s, -, -, -, ways, unfolds, entries⟩ := exists_unfolds_of_flatten ok ht
  rw [entries] at hf
  obtain ⟨w, hw, rfl⟩ := List.mem_map.mp hf
  exact Way.inner_seen ((unfolds.mem_iff_leads w).mp hw).inner_leaf

/-- What flattening gives holds no structure by value, has no empty structure, can be laid out flat
and is flattened to itself. -/
theorem flatten_idempotent (ok : h.flatten = .ok flat) :
    flat.Flat ∧ flat.Full ∧ flat.verify = .ok () ∧ flat.flatten = .ok flat := by
  have leaves := flat_of_flatten ok
  have full := full_of_flatten ok
  exact ⟨leaves, full, leaves.verify full, leaves.flatten full⟩

/-- A header in which a structure is held twice and no field is reached by its own name. -/
def intervalHeader : Header where
  entries :=
    [{ name := "interval".toList, line := 1, fields :=
        ⟨[{ Field.declared "from".toList "struct time".toList 2 with
              inner := some "time".toList, path := [] },
          { Field.declared "to".toList "struct time".toList 3 with inner := some "time".toList },
          { Field.declared "note".toList "char".toList 4 with
              length := some "8".toList, path := ["text".toList, "note".toList] }], by decide⟩ },
     { name := "time".toList, line := 6, fields :=
        ⟨[{ Field.declared "sec".toList "long".toList 7 with path := ["clock".toList] }],
          by decide⟩ }]
  distinct := by decide

theorem flatten_idempotent_intervalHeader :
    ∃ flat, intervalHeader.flatten = .ok flat ∧
      flat.entries.map (fun s => s.fields.entries.map fun f => String.ofList f.access) =
        [["from.clock", "to.clock", "text.note"], ["clock"]] ∧
      flat.Flat ∧ flat.Full ∧ flat.verify = .ok () ∧ flat.flatten = .ok flat := by
  have members : intervalHeader.flatten.toOption.map (fun flat => flat.entries.map fun s =>
      s.fields.entries.map fun f => String.ofList f.access) =
        some [["from.clock", "to.clock", "text.note"], ["clock"]] := by
    decide +kernel
  cases ok : intervalHeader.flatten with
  | error e =>
    rw [ok] at members
    cases members
  | ok flat =>
    rw [ok] at members
    exact ⟨flat, rfl, Option.some.inj members, flatten_idempotent ok⟩

end Header

end FieldTables
