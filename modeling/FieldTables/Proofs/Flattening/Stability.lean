import FieldTables.Proofs.Flattening.Clash

/-!
# Fields that are added later

A field that is added at the end of a structure moves none of its leaves. A structure that does not
hold the changed one, at any depth, keeps exactly its leaves, and every other structure gets its new
leaves between the old ones, whose order stays. So the numbers that stand for leaves change only
where the changed structure is held by value.
-/

namespace FieldTables.Header

open Outcome Relation

variable {h grown flat flatGrown : Header} {tag : Text} {g : Field}

/-- A header has one field more at the end of the structure of a tag. -/
def Appends (h : Header) (tag : Text) (g : Field) (grown : Header) : Prop :=
  ∃ (before after : List Structure) (s t : Structure),
    h.entries = before ++ s :: after ∧ grown.entries = before ++ t :: after ∧
      s.name = tag ∧ t.name = tag ∧ t.line = s.line ∧ t.fields.entries = s.fields.entries ++ [g]

/-- A structure has one field more if it is that of a tag, and is the same otherwise. -/
structure Gains (tag : Text) (g : Field) (s t : Structure) : Prop where
  /-- The name stays. -/
  name : t.name = s.name
  /-- The line stays. -/
  line : t.line = s.line
  /-- A structure of another tag stays as it is. -/
  other : s.name ≠ tag → t = s
  /-- The structure of the tag has the field behind the others. -/
  added : s.name = tag → t.fields.entries = s.fields.entries ++ [g]

/-- A structure loses no field, and keeps the places of all. -/
theorem Gains.exists_append {s t : Structure} (gains : Gains tag g s t) :
    ∃ more, t.fields.entries = s.fields.entries ++ more := by
  by_cases own : s.name = tag
  · exact ⟨[g], gains.added own⟩
  · exact ⟨[], by rw [gains.other own, List.append_nil]⟩

/-- Every structure gains the field or stays the same. -/
theorem Appends.forall₂_gains (appends : h.Appends tag g grown) :
    List.Forall₂ (Gains tag g) h.entries grown.entries := by
  obtain ⟨before, after, s, t, entries, entries', rfl, name, line, fields⟩ := appends
  have distinct := h.distinct
  rw [entries, List.map_append, List.map_cons, List.nodup_middle, List.nodup_cons,
    ← List.map_append] at distinct
  have others : ∀ u ∈ before ++ after, Gains s.name g u u := fun u mem =>
    ⟨rfl, rfl, fun _ => rfl, fun own => absurd (List.mem_map.mpr ⟨u, mem, own⟩) distinct.1⟩
  obtain ⟨front, back⟩ := List.forall_mem_append.mp others
  rw [entries, entries']
  refine List.rel_append (List.forall₂_same.mpr front) (.cons ?_ (List.forall₂_same.mpr back))
  exact ⟨name, line, fun other => absurd rfl other, fun _ => fields⟩

/-- A tag that finds a structure finds it with the field gained. -/
theorem Appends.exists_find? (appends : h.Appends tag g grown) {name : Text} {s : Structure}
    (found : h.find? name = some s) : ∃ t, grown.find? name = some t ∧ Gains tag g s t := by
  obtain ⟨mem, rfl⟩ := Roster.find?_eq_some_iff.mp found
  obtain ⟨t, listed, gains⟩ := exists_of_mem_left appends.forall₂_gains mem
  exact ⟨t, Roster.find?_eq_some_iff.mpr ⟨listed, gains.name⟩, gains⟩

/-- The ways from fields and further fields are those from the former, followed by the others. -/
theorem Unfolds.exists_append {fields more : List Field} {ways : List Way}
    (unfolds : h.Unfolds (fields ++ more) ways) :
    ∃ front back, ways = front ++ back ∧ h.Unfolds fields front ∧ h.Unfolds more back := by
  induction fields generalizing ways with
  | nil => exact ⟨[], ways, rfl, .nil, unfolds⟩
  | cons f rest ih =>
    rw [List.cons_append] at unfolds
    cases unfolds with
    | leaf leaf others =>
      obtain ⟨front, back, rfl, here, behind⟩ := ih others
      exact ⟨_, back, rfl, .leaf leaf here, behind⟩
    | nested holds found below others =>
      obtain ⟨front, back, rfl, here, behind⟩ := ih others
      exact ⟨_, back, (List.append_assoc ..).symm, .nested holds found below here, behind⟩

/-- The ways of fields stay in their order when a structure gains a field, with others between. -/
theorem Unfolds.sublist {fields : List Field} {ways others : List Way}
    (appends : h.Appends tag g grown) (unfolds : h.Unfolds fields ways)
    (again : grown.Unfolds fields others) : ways.Sublist others := by
  induction unfolds generalizing others with
  | nil => exact List.nil_sublist others
  | leaf leaf _ ih =>
    cases again with
    | leaf _ rest => exact (ih rest).cons_cons _
    | nested holds => cases leaf.symm.trans holds
  | nested holds found _ _ ihBelow ihRest =>
    cases again with
    | leaf leaf => cases holds.symm.trans leaf
    | nested holds' found' below rest =>
      cases holds.symm.trans holds'
      obtain ⟨t, there, gains⟩ := appends.exists_find? found
      cases there.symm.trans found'
      obtain ⟨more, entries⟩ := gains.exists_append
      rw [entries] at below
      obtain ⟨front, back, rfl, own, -⟩ := below.exists_append
      refine List.Sublist.append (List.Sublist.map _ ?_) (ihRest rest)
      exact (ihBelow own).trans (List.sublist_append_left front back)

/-- Fields that do not lead to a structure are unfolded alike when it gains a field. -/
theorem Unfolds.of_not_reaches {fields : List Field} {ways : List Way}
    (appends : h.Appends tag g grown) (unfolds : h.Unfolds fields ways)
    (apart : ∀ f ∈ fields, ∀ name, f.inner = some name → ¬ ReflTransGen h.Holds name tag) :
    grown.Unfolds fields ways := by
  induction unfolds with
  | nil => exact .nil
  | leaf leaf _ ih => exact .leaf leaf (ih (List.forall_mem_cons.mp apart).2)
  | nested holds found _ _ ihBelow ihRest =>
    obtain ⟨here, later⟩ := List.forall_mem_cons.mp apart
    have away := here _ holds
    obtain ⟨t, there, gains⟩ := appends.exists_find? found
    have name := Roster.name_of_find?_eq_some found
    cases gains.other fun own => away (name.symm.trans own ▸ .refl)
    refine .nested holds there (ihBelow fun f mem inner deeper reaches => away ?_) (ihRest later)
    refine .head ((holds_iff_mem_nested found).mpr ?_) reaches
    exact List.mem_filterMap.mpr ⟨f, mem, deeper⟩

/-- What the leaves of a structure become when the structure of a tag gains a field. -/
structure Keeps (h : Header) (tag : Text) (s t : Structure) : Prop where
  /-- The name stays. -/
  name : t.name = s.name
  /-- The line stays. -/
  line : t.line = s.line
  /-- The structure of the tag keeps its leaves, in front of all that it gains. -/
  own : s.name = tag → s.fields.entries <+: t.fields.entries
  /-- A structure that the one of the tag cannot be reached from keeps exactly its leaves. -/
  apart : ¬ ReflTransGen h.Holds s.name tag → t.fields = s.fields
  /-- Every structure keeps its leaves in their order. -/
  order : s.fields.entries.Sublist t.fields.entries

/-- The leaves of a structure are kept when a structure gains a field. -/
theorem FlatOf.keeps {s t u w : Structure} (appends : h.Appends tag g grown) (acyclic : h.Acyclic)
    (mem : s ∈ h.entries) (gains : Gains tag g s t) (flatOf : h.FlatOf s u)
    (flatOfGrown : grown.FlatOf t w) : h.Keeps tag u w := by
  obtain ⟨name, line, ways, unfolds, entries⟩ := flatOf
  obtain ⟨name', line', others, unfolds', entries'⟩ := flatOfGrown
  obtain ⟨more, fields⟩ := gains.exists_append
  rw [fields] at unfolds'
  obtain ⟨front, back, rfl, again, behind⟩ := unfolds'.exists_append
  rw [List.map_append] at entries'
  have same : (∀ f ∈ s.fields.entries, ∀ name, f.inner = some name →
      ¬ ReflTransGen h.Holds name tag) → front = ways := fun away =>
    again.unique (unfolds.of_not_reaches appends away)
  refine ⟨name'.trans (gains.name.trans name.symm), line'.trans (gains.line.trans line.symm),
    fun own => ?_, fun away => ?_, ?_⟩
  · rw [entries, entries', same ?_]
    · exact List.prefix_append ..
    · -- A field that led back to the structure would close a cycle.
      intro f listed inner holds reaches
      exact acyclic tag (.head' ⟨s, mem, name.symm.trans own, f, listed, holds⟩ reaches)
  · have other : s.name ≠ tag := fun own => away (name.trans own ▸ .refl)
    rw [gains.other other, List.self_eq_append_right] at fields
    subst fields
    cases behind
    refine Roster.ext ?_
    rw [entries, entries', same ?_, List.map_nil, List.append_nil]
    intro f listed inner holds reaches
    exact away (name ▸ .head ⟨s, mem, rfl, f, listed, holds⟩ reaches)
  · rw [entries, entries']
    exact ((unfolds.sublist appends again).map _).trans (List.sublist_append_left ..)

/-- When a structure gains a field at its end and both headers are flattened, the flat headers have
the same structures in the same order, and each keeps its leaves: the changed structure in front,
those that did not reach it exactly, and all of them in order. -/
theorem flatten_keeps (appends : h.Appends tag g grown) (ok : h.flatten = .ok flat)
    (okGrown : grown.flatten = .ok flatGrown) :
    List.Forall₂ (h.Keeps tag) flat.entries flatGrown.entries := by
  obtain ⟨accepted, pairs⟩ := flatten_eq_ok_iff.mp ok
  obtain ⟨-, pairsGrown⟩ := flatten_eq_ok_iff.mp okGrown
  obtain ⟨-, -, acyclic⟩ := verify_eq_ok_iff.mp accepted
  have declared : List.Forall₂ (fun s u => s ∈ h.entries ∧ h.FlatOf s u) h.entries flat.entries :=
    (List.forall₂_and_left _ _).mpr ⟨fun s mem => mem, pairs⟩
  have middle : List.Forall₂ (fun u t => ∃ s, (s ∈ h.entries ∧ h.FlatOf s u) ∧ Gains tag g s t)
      flat.entries grown.entries :=
    forall₂_trans (fun u s t flatOf gains => ⟨s, flatOf, gains⟩) declared.flip
      appends.forall₂_gains
  refine forall₂_trans ?_ middle pairsGrown
  rintro u t w ⟨s, ⟨mem, flatOf⟩, gains⟩ flatOfGrown
  exact flatOf.keeps appends acyclic mem gains flatOfGrown

/-- A disk that holds a span, with the fields that a span has. -/
def diskHeader (span : Roster Field) : Header where
  entries :=
    [{ name := "disk".toList, line := 1, fields :=
        ⟨[{ Field.declared "at".toList "struct span".toList 2 with inner := some "span".toList },
          Field.declared "id".toList "int".toList 3], by decide⟩ },
     { name := "span".toList, line := 5, fields := span },
     { name := "unit".toList, line := 9, fields :=
        ⟨[Field.declared "size".toList "long".toList 10], by decide⟩ }]
  distinct := by
    change ["disk".toList, "span".toList, "unit".toList].Nodup
    decide

/-- The field that a span gains. -/
def stepField : Field :=
  { Field.declared "step".toList "struct unit".toList 7 with inner := some "unit".toList }

/-- The header with a span of one field. -/
def shortHeader : Header := diskHeader ⟨[.declared "start".toList "long".toList 6], by decide⟩

/-- The header with a span of two fields. -/
def longHeader : Header :=
  diskHeader ⟨[.declared "start".toList "long".toList 6, stepField], by decide⟩

theorem flatten_keeps_diskHeader :
    shortHeader.Appends "span".toList stepField longHeader ∧
      ∃ flat flatGrown, shortHeader.flatten = .ok flat ∧ longHeader.flatten = .ok flatGrown ∧
        flat.entries.map (fun s => s.fields.names.map String.ofList) =
          [["at_start", "id"], ["start"], ["size"]] ∧
        flatGrown.entries.map (fun s => s.fields.names.map String.ofList) =
          [["at_start", "at_step_size", "id"], ["start", "step_size"], ["size"]] ∧
        List.Forall₂ (shortHeader.Keeps "span".toList) flat.entries flatGrown.entries := by
  have appends : shortHeader.Appends "span".toList stepField longHeader :=
    ⟨[_], [_], _, _, rfl, rfl, rfl, rfl, rfl, rfl⟩
  have before : shortHeader.flatten.toOption.map (fun flat => flat.entries.map fun s =>
      s.fields.names.map String.ofList) = some [["at_start", "id"], ["start"], ["size"]] := by
    decide +kernel
  have after : longHeader.flatten.toOption.map (fun flat => flat.entries.map fun s =>
      s.fields.names.map String.ofList) =
        some [["at_start", "at_step_size", "id"], ["start", "step_size"], ["size"]] := by
    decide +kernel
  obtain ⟨flat, ok, names⟩ := exists_of_map_toOption before
  obtain ⟨flatGrown, okGrown, namesGrown⟩ := exists_of_map_toOption after
  exact ⟨appends, flat, flatGrown, ok, okGrown, names, namesGrown, flatten_keeps appends ok okGrown⟩

end FieldTables.Header
