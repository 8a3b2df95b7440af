import FieldTables.Header.Builder
import FieldTables.Proofs.Source.Reading

/-!
# The picture of a header in a builder

A builder is the picture of a header when every structure and every field stands under its own name
and fields go to the last structure. A call on such a builder does what growing does to the header,
with the same error, and leaves the picture of the header that has grown.
-/

namespace FieldTables

open Outcome

variable {h grown : Header} {s : Structure} {f : Field} {name : Text} {line : Nat} {c : Call}
  {calls : List Call} {e : Error}

namespace OrderedMap

variable {α : Type}

/-- The entries of a roster under their own names. -/
def ofNamed [Named α] {β : Type} (v : α → β) (entries : List α) : OrderedMap β :=
  ⟨entries.map fun a => (Named.name a, v a)⟩

variable [Named α] {β : Type} {v : α → β} {entries before : List α} {a b : α} {key : Text}

/-- The keys of entries under their own names are these names. -/
theorem contains_ofNamed_iff :
    (ofNamed v entries).contains key = true ↔ key ∈ entries.map Named.name := by
  induction entries with
  | nil => simp [ofNamed, contains, get?]
  | cons a rest ih =>
    rw [contains, get?, ofNamed] at ih ⊢
    rw [List.map_cons, List.lookup_cons, List.map_cons, List.mem_cons]
    split
    next same => simp [beq_iff_eq.mp same]
    next other => simpa [show key ≠ Named.name a by simpa using other] using ih

/-- The value of the last of entries with distinct names. -/
theorem get?_ofNamed_concat (fresh : Named.name a ∉ before.map Named.name) :
    (ofNamed v (before ++ [a])).get? (Named.name a) = some (v a) := by
  induction before with
  | nil => simp [ofNamed, get?]
  | cons b rest ih =>
    rw [List.map_cons, List.mem_cons, not_or] at fresh
    have other : (Named.name a == Named.name b) = false := by simpa using fresh.1
    rw [get?, ofNamed] at ih ⊢
    rw [List.cons_append, List.map_cons, List.lookup_cons, other]
    exact ih fresh.2

/-- A new name is put at the end. -/
theorem insert_ofNamed (fresh : Named.name a ∉ entries.map Named.name) :
    (ofNamed v entries).insert (Named.name a) (v a) = ofNamed v (entries ++ [a]) := by
  rw [insert, if_neg (contains_ofNamed_iff.not.mpr fresh), ofNamed, ofNamed, List.map_append,
    List.map_singleton]

/-- What is put under the name of the last entry takes its place. -/
theorem insert_ofNamed_concat (same : Named.name b = Named.name a)
    (fresh : Named.name a ∉ before.map Named.name) :
    (ofNamed v (before ++ [a])).insert (Named.name a) (v b) =
      ofNamed v (before ++ [b]) := by
  have there : (ofNamed v (before ++ [a])).contains (Named.name a) = true :=
    contains_ofNamed_iff.mpr (by simp)
  have kept : ∀ d ∈ before, Named.name d ≠ Named.name a := fun d mem taken =>
    fresh (taken ▸ List.mem_map_of_mem mem)
  rw [insert, if_pos there]
  simp only [ofNamed, List.map_append, List.map_map, List.map_singleton, if_pos, same]
  congr 2
  exact List.map_congr_left fun d mem => if_neg (kept d mem)

end OrderedMap

/-- A structure with its fields under their names. -/
def Structure.draft (s : Structure) : Draft where
  name := s.name
  line := s.line
  fields := .ofNamed id s.fields.entries

namespace Header

/-- The builder that is the picture of a header. -/
def builder (h : Header) : Builder where
  structures := .ofNamed Structure.draft h.entries
  current := h.last?.map Structure.name

/-- The tag of the last structure is no other one's. -/
theorem name_notMem_of_entries {before : List Structure} (last : h.entries = before ++ [s]) :
    s.name ∉ before.map Named.name := by
  have distinct := h.distinct
  rw [last, List.map_append, List.nodup_append'] at distinct
  exact fun mem => distinct.2.2 mem List.mem_cons_self

/-- A header has no last structure, or else it ends with it. -/
theorem eq_empty_or_exists_last (h : Header) :
    h.entries = [] ∨ ∃ before s, h.entries = before ++ [s] := by
  rcases List.eq_nil_or_concat h.entries with empty | ⟨before, s, last⟩
  · exact .inl empty
  · exact .inr ⟨before, s, by rw [last, List.concat_eq_append]⟩

theorem addStructure_eq_error_iff :
    h.addStructure name line = .error e ↔ name ∈ h.names ∧ e = .duplicateStructure name := by
  unfold addStructure
  split
  next found =>
    exact iff_of_false nofun fun taken => (Roster.insert?_eq_some_iff.mp found).1 taken.1
  next refused =>
    have taken : name ∈ h.names := Roster.insert?_eq_none_iff.mp refused
    simp [taken, eq_comm]

theorem addField_of_empty (empty : h.entries = []) :
    h.addField f = .error (.syntactic f.line 1 (.orphan f.name)) := by
  rw [addField, Roster.last?, empty]
  rfl

theorem addField_eq_error_iff {before : List Structure} (last : h.entries = before ++ [s]) :
    h.addField f = .error e ↔ f.name ∈ s.fields.names ∧ e = .duplicateField s.name f.name := by
  have found : h.last? = some s := by rw [Roster.last?, last, List.getLast?_concat]
  simp only [addField, found]
  split
  next grown inserted =>
    refine iff_of_false (fun failed => ?_) fun taken => ?_
    · cases failed
    · exact (Roster.insert?_eq_some_iff.mp inserted).1 taken.1
  next refused =>
    have taken : f.name ∈ s.fields.names := Roster.insert?_eq_none_iff.mp refused
    simp [taken, eq_comm]

/-- What is added behind the last structure is the new last one. -/
theorem builder_eq {before : List Structure} (last : h.entries = before ++ [s]) :
    h.builder = ⟨.ofNamed Structure.draft (before ++ [s]), some s.name⟩ := by
  rw [builder, Roster.last?, last, List.getLast?_concat]
  rfl

theorem take_of_ok (ok : c.apply h = .ok grown) : h.take c = grown := by
  rw [take, ok]
  rfl

theorem take_of_error (failed : c.apply h = .error e) : h.take c = h := by
  rw [take, failed]
  rfl

end Header

namespace Builder

/-- The steps of opening a structure, put together. -/
theorem beginStructure_eq (b : Builder) : beginStructure name line b =
    if b.structures.contains name then (.error (.duplicateStructure name), b)
    else (.ok (), ⟨b.structures.insert name { name := name, line := line }, some name⟩) := by
  unfold beginStructure
  change (ite _ _ _ : ExceptT Error (StateM Builder) Unit) b = _
  split <;> rfl

/-- The steps of adding a field, put together. -/
theorem pushField_eq (b : Builder) : pushField f b =
    match b.current.bind fun tag => (b.structures.get? tag).map fun s => (tag, s) with
    | none => (.error (.syntactic f.line 1 (.orphan f.name)), b)
    | some (tag, s) =>
      if s.fields.contains f.name then (.error (.duplicateField s.name f.name), b)
      else
        let grown := { s with fields := s.fields.insert f.name f }
        (.ok (), { b with structures := b.structures.insert tag grown }) := by
  unfold pushField
  change (match b.current.bind fun tag => (b.structures.get? tag).map fun s => (tag, s) with
    | none => _
    | some (tag, s) => _ : ExceptT Error (StateM Builder) Unit) b = _
  cases b.current.bind fun tag => (b.structures.get? tag).map fun s => (tag, s) with
  | none => rfl
  | some found =>
    dsimp only
    split <;> rfl

end Builder

namespace Call

open Header

private theorem run_beginStructure (h : Header) :
    (beginStructure name line).run h.builder =
      (((beginStructure name line).apply h).map fun _ => (),
        (h.take (beginStructure name line)).builder) := by
  have there : h.builder.structures.contains name = true ↔ name ∈ h.names :=
    OrderedMap.contains_ofNamed_iff
  rw [run, Builder.beginStructure_eq]
  cases outcome : (beginStructure name line).apply h with
  | error e =>
    obtain ⟨taken, rfl⟩ := addStructure_eq_error_iff.mp outcome
    rw [if_pos (there.mpr taken), take_of_error outcome]
    rfl
  | ok grown =>
    have entries := addStructure_eq_ok_iff.mp outcome
    have fresh : name ∉ h.names := name_notMem_of_entries entries
    rw [if_neg (there.not.mpr fresh), take_of_ok outcome, builder_eq entries]
    exact congrArg (fun m => (Except.ok (), Builder.mk m (some name)))
      (OrderedMap.insert_ofNamed (v := Structure.draft) (a := ⟨name, line, .empty⟩) fresh)

private theorem run_pushField (h : Header) :
    (pushField f).run h.builder =
      (((pushField f).apply h).map fun _ => (), (h.take (pushField f)).builder) := by
  rw [run, Builder.pushField_eq]
  rcases eq_empty_or_exists_last h with empty | ⟨before, s, last⟩
  · have failed : (pushField f).apply h = _ := addField_of_empty empty
    rw [take_of_error failed, failed, builder, Roster.last?, empty]
    rfl
  have fresh := name_notMem_of_entries last
  have found : (h.builder.structures.get? s.name).map (fun d => (s.name, d)) =
      some (s.name, s.draft) := by
    rw [builder_eq last]
    exact congrArg _ (OrderedMap.get?_ofNamed_concat (v := Structure.draft) fresh)
  have current : h.builder.current = some s.name := by rw [builder_eq last]
  have there : s.draft.fields.contains f.name = true ↔ f.name ∈ s.fields.names :=
    OrderedMap.contains_ofNamed_iff
  rw [current, Option.bind_some, found]
  dsimp only
  cases outcome : (pushField f).apply h with
  | error e =>
    obtain ⟨taken, rfl⟩ := (addField_eq_error_iff last).mp outcome
    rw [if_pos (there.mpr taken), take_of_error outcome]
    rfl
  | ok grown =>
    obtain ⟨t, name, line, fields, entries⟩ := (addField_eq_ok_iff last).mp outcome
    have free : f.name ∉ s.fields.names := by
      intro taken
      cases outcome.symm.trans ((addField_eq_error_iff last).mpr ⟨taken, rfl⟩)
    have inserted : s.draft.fields.insert f.name f = .ofNamed id t.fields.entries := by
      rw [fields]
      exact OrderedMap.insert_ofNamed (v := id) free
    have draft : { s.draft with fields := s.draft.fields.insert f.name f } = t.draft := by
      rw [inserted, Structure.draft, Structure.draft, name, line]
    rw [if_neg (there.not.mpr free), take_of_ok outcome, builder_eq entries, builder_eq last,
      draft, name]
    exact congrArg (fun m => (Except.ok (), Builder.mk m (some s.name)))
      (OrderedMap.insert_ofNamed_concat name fresh)

/-- A call does to the picture of a header what growing does to the header. -/
theorem run_builder (h : Header) (c : Call) :
    c.run h.builder = ((c.apply h).map fun _ => (), (h.take c).builder) := by
  cases c with
  | beginStructure name line => exact run_beginStructure h
  | pushField f => exact run_pushField h

/-- A call that fails leaves the builder as it was, whatever it was. -/
theorem run_eq_self_of_error {b : Builder} (failed : (c.run b).1 = .error e) : (c.run b).2 = b := by
  cases c with
  | beginStructure name line =>
    rw [run, Builder.beginStructure_eq] at failed ⊢
    split at failed
    next taken => rw [if_pos taken]
    next => cases failed
  | pushField f =>
    rw [run, Builder.pushField_eq] at failed ⊢
    split at failed
    next => rfl
    next tag s _ =>
      split at failed
      next taken =>
        dsimp only
        rw [if_pos taken]
      next => cases failed

end Call

end FieldTables
