import FieldTables.Proofs.Flattening.Clash

/-!
# When flattening is refused

A header is refused because it cannot be laid out flat, with the reason that is found for that, or
because two member paths of one structure join to the same name. There is no other reason, and the
name that is reported is one that two paths of the reported structure do join to, at whatever depth
they part.
-/

namespace FieldTables

open Outcome

/-- A leaf is seen under the names of all members on the way to it, joined. -/
theorem Way.name_seen (w : Way) : w.seen.name = ['_'].intercalate w.members := by
  obtain ⟨outer, leaf⟩ := w
  induction outer with
  | nil => simp [seen, members, fields]
  | cons f rest ih =>
    change f.name ++ '_' :: (Way.mk rest leaf).seen.name =
      ['_'].intercalate (f.name :: (Way.mk rest leaf).members)
    rw [ih, List.intercalate_cons_of_ne_nil (members_ne_nil _)]
    simp

/-- A structure has one field of a name. -/
theorem Structure.field_eq_of_name_eq {s : Structure} {f g : Field} (hf : f ∈ s.fields.entries)
    (hg : g ∈ s.fields.entries) (same : f.name = g.name) : f = g :=
  List.inj_on_of_nodup_map s.fields.distinct hf hg same

namespace Header

variable {h : Header} {s : Structure} {v w : Way}

/-- The ways of a structure are told apart by their members. -/
theorem Leads.eq_of_members_eq {fields : List Field} (first : h.Leads fields v)
    (inside : fields = s.fields.entries) (second : h.Leads fields w)
    (same : v.members = w.members) : v = w := by
  induction first generalizing s w with
  | leaf hf leaf =>
    subst inside
    cases second with
    | leaf hg _ => rw [Structure.field_eq_of_name_eq hf hg (List.cons.inj same).1]
    | nested => exact absurd (List.cons.inj same).2.symm (Way.members_ne_nil _)
  | nested hf holds found _ ih =>
    subst inside
    cases second with
    | leaf => exact absurd (List.cons.inj same).2 (Way.members_ne_nil _)
    | nested hg holds' found' below =>
      obtain ⟨names, others⟩ := List.cons.inj same
      obtain rfl := Structure.field_eq_of_name_eq hf hg names
      cases holds.symm.trans holds'
      cases found.symm.trans found'
      rw [ih rfl below others]

/-- Two different member paths lead from the structure of a tag down to leaves and join to one
name. -/
def Merges (h : Header) (tag name : Text) : Prop :=
  ∃ s, h.find? tag = some s ∧ ∃ v w, h.Leads s.fields.entries v ∧ h.Leads s.fields.entries w ∧
    v.members ≠ w.members ∧ ['_'].intercalate v.members = name ∧
      ['_'].intercalate w.members = name

/-- Two ways are seen under one name exactly when two member paths join to it. -/
theorem clash_iff_merges {tag name : Text} : h.Clash tag name ↔ h.Merges tag name := by
  constructor
  · rintro ⟨s, found, v, w, different, hv, hw, here, there⟩
    refine ⟨s, found, v, w, hv, hw, fun same => different ?_, ?_, ?_⟩
    · exact hv.eq_of_members_eq rfl hw same
    · rw [← Way.name_seen, here]
    · rw [← Way.name_seen, there]
  · rintro ⟨s, found, v, w, hv, hw, different, here, there⟩
    refine ⟨s, found, v, w, fun same => different (congrArg Way.members same), hv, hw, ?_, ?_⟩
    · rw [Way.name_seen, here]
    · rw [Way.name_seen, there]

/-- A header that can be laid out flat is refused only for a name that two member paths join to. -/
theorem merges_of_flatten_eq_error {e : Error} (accepted : h.verify = .ok ())
    (refused : h.flatten = .error e) :
    ∃ tag name, e = .duplicateField tag name ∧ h.Merges tag name := by
  obtain ⟨-, closed, acyclic⟩ := verify_eq_ok_iff.mp accepted
  rcases bind_eq_error_iff.mp refused with early | ⟨_, _, rest⟩
  · cases accepted.symm.trans early
  rcases bind_eq_error_iff.mp rest with failed | ⟨_, _, finish⟩
  · obtain ⟨tag, name, rfl, clash⟩ :=
      clash_of_tabulate_all closed acyclic (List.Subset.refl _) .nil failed
    exact ⟨tag, name, rfl, clash_iff_merges.mp clash⟩
  · cases finish

/-- A header with two member paths that join to one name is not flattened. -/
theorem Merges.flatten_ne_ok {flat : Header} {tag name : Text} (merges : h.Merges tag name) :
    h.flatten ≠ .ok flat := by
  intro ok
  obtain ⟨-, pairs⟩ := flatten_eq_ok_iff.mp ok
  obtain ⟨s, found, clash⟩ := clash_iff_merges.mpr merges
  obtain ⟨t, -, flatOf⟩ := exists_of_mem_left pairs (List.mem_of_find?_eq_some found)
  exact flatOf.not_clash found ⟨s, found, clash⟩

/-- A header that cannot be laid out flat is refused for that reason. Any other header is refused
exactly when two member paths of a structure join to one name, and such a structure and name are
reported. -/
theorem flatten_refuses (h : Header) :
    ((∃ e, h.flatten = .error e) ↔
        (∃ e, h.verify = .error e) ∨ ∃ tag name, h.Merges tag name) ∧
      (∀ e, h.verify = .error e → h.flatten = .error e) ∧
      (h.verify = .ok () → ∀ e, h.flatten = .error e →
        ∃ tag name, e = .duplicateField tag name ∧ h.Merges tag name) := by
  have early : ∀ e, h.verify = .error e → h.flatten = .error e := fun e refused =>
    bind_eq_error_iff.mpr (.inl refused)
  refine ⟨⟨?_, ?_⟩, early, fun accepted e refused => merges_of_flatten_eq_error accepted refused⟩
  · rintro ⟨e, refused⟩
    cases accepted : h.verify with
    | error cause => exact .inl ⟨cause, rfl⟩
    | ok _ =>
      obtain ⟨tag, name, -, merges⟩ := merges_of_flatten_eq_error accepted refused
      exact .inr ⟨tag, name, merges⟩
  · rintro (⟨e, refused⟩ | ⟨tag, name, merges⟩)
    · exact ⟨e, early e refused⟩
    · cases result : h.flatten with
      | ok flat => exact absurd result merges.flatten_ne_ok
      | error e => exact ⟨e, rfl⟩

/-- Two fields that share the start of their names: the member paths part after it, at different
depths, in a structure that is reached through another one. -/
def spliceHeader : Header where
  entries :=
    [{ name := "outer".toList, line := 1, fields :=
        ⟨[{ Field.declared "x".toList "struct splice".toList 2 with
              inner := some "splice".toList }], by decide⟩ },
     { name := "splice".toList, line := 4, fields :=
        ⟨[{ Field.declared "a_b".toList "struct left".toList 5 with inner := some "left".toList },
          { Field.declared "a".toList "struct right".toList 6 with
              inner := some "right".toList }], by decide⟩ },
     { name := "left".toList, line := 8, fields :=
        ⟨[Field.declared "c".toList "int".toList 9], by decide⟩ },
     { name := "right".toList, line := 11, fields :=
        ⟨[Field.declared "b_c".toList "int".toList 12], by decide⟩ }]
  distinct := by decide

example : spliceHeader.verify = .ok () ∧
    (match spliceHeader.flatten with
      | .ok _ => none
      | .error e => some e) = some (.duplicateField "splice".toList "a_b_c".toList) := by
  decide +kernel

end Header

end FieldTables
