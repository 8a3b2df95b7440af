import FieldTables.Proofs.Flattening.Exactness

/-!
# When flattening succeeds

A header that can be laid out flat is flattened unless two ways from one structure down to leaves
are seen under one name. The table has no part in it: what is collected from it is what would be
collected without it, so a name that is refused is really given twice.
-/

namespace FieldTables.Header

open Outcome

variable {h flat : Header} {s : Structure}

/-- Two ways from the structure of a tag down to leaves are seen under one name. -/
def Clash (h : Header) (tag name : Text) : Prop :=
  ∃ s, h.find? tag = some s ∧ ∃ v w, v ≠ w ∧ h.Leads s.fields.entries v ∧
    h.Leads s.fields.entries w ∧ v.seen.name = name ∧ w.seen.name = name

/-- The unfolding of fields is that of the first of them, followed by that of the others. -/
theorem Unfolds.append {fields more : List Field} {ways others : List Way}
    (unfolds : h.Unfolds fields ways) (after : h.Unfolds more others) :
    h.Unfolds (fields ++ more) (ways ++ others) := by
  induction unfolds with
  | nil => exact after
  | leaf leaf _ ih => exact .leaf leaf ih
  | nested holds found below _ _ ih =>
    rw [List.append_assoc]
    exact .nested holds found below ih

/-- A way starts with one of the fields that it leads from. -/
theorem Leads.first_mem {fields : List Field} {w : Way} (leads : h.Leads fields w) :
    w.first ∈ fields := by
  cases leads with
  | leaf mem => exact mem
  | nested mem => exact mem

/-- A leaf that is refused has the name of one that is there. -/
theorem addLeaf_eq_error {owner : Text} {leaves : Roster Field} {leaf : Field} {e : Error}
    (failed : addLeaf owner leaves leaf = .error e) :
    e = .duplicateField owner leaf.name ∧ leaf.name ∈ leaves.names := by
  unfold addLeaf at failed
  cases inserted : leaves.insert? leaf with
  | some grown =>
    rw [inserted] at failed
    cases failed
  | none =>
    rw [inserted] at failed
    cases failed
    refine ⟨rfl, ?_⟩
    by_contra free
    change Named.name leaf ∉ leaves.names at free
    rw [Roster.insert?, dif_pos free] at inserted
    cases inserted

/-- Of leaves with distinct names, one that is refused has the name of one that was there before
them. -/
theorem addLeaves_eq_error {owner : Text} {added : List Field} {leaves : Roster Field} {e : Error}
    (distinct : (added.map Field.name).Nodup)
    (failed : added.foldlM (addLeaf owner) leaves = .error e) :
    ∃ leaf ∈ added, e = .duplicateField owner leaf.name ∧ leaf.name ∈ leaves.names := by
  induction added generalizing leaves with
  | nil => cases failed
  | cons first rest ih =>
    obtain ⟨others, distinct⟩ := List.nodup_cons.mp distinct
    rw [List.foldlM_cons] at failed
    rcases bind_eq_error_iff.mp failed with here | ⟨grown, here, later⟩
    · exact ⟨first, List.mem_cons_self, addLeaf_eq_error here⟩
    · obtain ⟨leaf, mem, rfl, taken⟩ := ih distinct later
      rw [Roster.names, entries_of_addLeaf here, List.map_append, List.mem_append] at taken
      refine ⟨leaf, List.mem_cons_of_mem first mem, rfl, taken.resolve_right fun same => ?_⟩
      have same : leaf.name = first.name := List.mem_singleton.mp same
      exact others (same ▸ List.mem_map_of_mem mem)

/-- How far the leaves of a structure are collected: those of the fields before the given ones are
found. -/
def Halfway (h : Header) (s : Structure) (fields leaves : List Field) : Prop :=
  ∃ prior ways, s.fields.entries = prior ++ fields ∧ h.Unfolds prior ways ∧
    leaves = ways.map Way.seen

namespace Halfway

variable {f : Field} {rest leaves : List Field}

theorem start (h : Header) (s : Structure) : h.Halfway s s.fields.entries [] :=
  ⟨[], [], rfl, .nil, rfl⟩

/-- A leaf is collected. -/
theorem leaf (halfway : h.Halfway s (f :: rest) leaves) (leaf : f.inner = none) :
    h.Halfway s rest (leaves ++ [f]) := by
  obtain ⟨prior, ways, split, unfolds, rfl⟩ := halfway
  refine ⟨prior ++ [f], ways ++ [⟨[], f⟩], ?_, unfolds.append (.leaf leaf .nil), ?_⟩
  · rw [split, List.append_assoc, List.singleton_append]
  · rw [List.map_append]
    rfl

/-- The leaves of a structure that a field holds are collected. -/
theorem nested {name : Text} {below : List Field} (halfway : h.Halfway s (f :: rest) leaves)
    (holds : f.inner = some name) (flat : h.IsFlat name below) :
    h.Halfway s rest (leaves ++ below.map f.through) := by
  obtain ⟨prior, ways, split, unfolds, rfl⟩ := halfway
  obtain ⟨t, inside, found, unfoldsBelow, rfl⟩ := flat
  refine ⟨prior ++ [f], ways ++ (inside.map (Way.extend f) ++ []), ?_,
    unfolds.append (.nested holds found unfoldsBelow .nil), ?_⟩
  · rw [split, List.append_assoc, List.singleton_append]
  · rw [List.append_nil, List.map_append, List.map_map, List.map_map]
    rfl

/-- A way through the next field that is seen under a name given before makes a clash. -/
theorem clash {tag : Text} {w : Way} (halfway : h.Halfway s (f :: rest) leaves)
    (found : h.find? tag = some s) (leads : h.Leads (f :: rest) w) (first : w.first = f)
    (taken : w.seen.name ∈ leaves.map Field.name) : h.Clash tag w.seen.name := by
  obtain ⟨prior, ways, split, unfolds, rfl⟩ := halfway
  obtain ⟨leaf, hleaf, same⟩ := List.mem_map.mp taken
  obtain ⟨v, hv, rfl⟩ := List.mem_map.mp hleaf
  have earlier := (unfolds.mem_iff_leads v).mp hv
  refine ⟨s, found, v, w, ?_, earlier.mono ?_, leads.mono ?_, same, rfl⟩
  · rintro rfl
    have distinct := s.fields.distinct
    rw [split, List.map_append, List.nodup_append'] at distinct
    exact distinct.2.2 (List.mem_map_of_mem (first ▸ earlier.first_mem)) List.mem_cons_self
  · exact split ▸ List.subset_append_left prior _
  · exact split ▸ List.subset_append_right prior _

end Halfway

/-- The leaves of a structure, seen through a field, have distinct names. -/
theorem nodup_through (f : Field) (below : Roster Field) :
    ((below.entries.map f.through).map Field.name).Nodup := by
  have names : (below.entries.map f.through).map Field.name =
      below.names.map (fun name => f.name ++ '_' :: name) := by
    rw [Roster.names, List.map_map, List.map_map]
    rfl
  rw [names]
  refine List.Nodup.map (fun x y same => ?_) below.distinct
  exact (List.cons.inj (List.append_cancel_left same)).2

/-- A failure while leaves are added that a field leads to is a clash. -/
private theorem clash_of_addLeaves {owner name : Text} {f : Field} {rest : List Field}
    {leaves below : Roster Field} {e : Error} (found : h.find? owner = some s)
    (halfway : h.Halfway s (f :: rest) leaves.entries) (holds : f.inner = some name)
    (flat : h.IsFlat name below.entries)
    (failed : (below.entries.map f.through).foldlM (addLeaf owner) leaves = .error e) :
    ∃ tag name, e = .duplicateField tag name ∧ h.Clash tag name := by
  obtain ⟨leaf, mem, rfl, taken⟩ := addLeaves_eq_error (nodup_through f below) failed
  refine ⟨owner, leaf.name, rfl, ?_⟩
  obtain ⟨t, ways, inner, unfolds, seen⟩ := flat
  rw [seen, List.map_map] at mem
  obtain ⟨w, hw, rfl⟩ := List.mem_map.mp mem
  have inside := (unfolds.mem_iff_leads w).mp hw
  exact halfway.clash (w := w.extend f) found (.nested List.mem_cons_self holds inner inside) rfl
    taken

/-- A failure to collect the leaves of a structure is a clash. -/
theorem clash_of_collect {chain : List Text} {owner : Text} {fields : List Field}
    {leaves : Roster Field} {table : LeafTable} {e : Error} (closed : h.Closed)
    (acyclic : h.Acyclic) (sound : h.Sound table) (inside : h.Inside chain owner fields)
    (found : h.find? owner = some s) (halfway : h.Halfway s fields leaves.entries)
    (failed : h.collect chain owner fields leaves table = .error e) :
    ∃ tag name, e = .duplicateField tag name ∧ h.Clash tag name := by
  fun_induction collect h chain owner fields leaves table generalizing s with
  | case1 chain owner leaves table => cases failed
  | case2 chain owner leaves table f rest leaf ih =>
    rcases bind_eq_error_iff.mp failed with here | ⟨next, added, later⟩
    · obtain ⟨rfl, taken⟩ := addLeaf_eq_error here
      exact ⟨owner, f.name, rfl, halfway.clash (w := ⟨[], f⟩) found
        (.leaf List.mem_cons_self leaf) rfl taken⟩
    · have next_halfway := halfway.leaf leaf
      rw [← entries_of_addLeaf added] at next_halfway
      exact ih next sound inside.rest found next_halfway later
  | case3 chain owner leaves table f rest name holds below known ih =>
    have flat := sound name below known
    rcases bind_eq_error_iff.mp failed with here | ⟨next, added, later⟩
    · exact clash_of_addLeaves found halfway holds flat here
    · have next_halfway := halfway.nested holds flat
      rw [← entries_of_addLeaves added] at next_halfway
      exact ih next sound inside.rest found next_halfway later
  | case4 chain owner leaves table f rest name holds _ absent _ =>
    have declared := closed owner name (inside.held f List.mem_cons_self name holds)
    obtain ⟨t, there⟩ := exists_find?_of_mem_names declared
    cases absent.symm.trans there
  | case5 chain owner leaves table f rest name holds _ t there _ ihBelow ihRest =>
    have down := inside.down holds there
    rcases bind_eq_error_iff.mp failed with deeper | ⟨⟨below, between⟩, deeper, after⟩
    · exact ihBelow sound down there (.start h t) deeper
    · obtain ⟨⟨ways, unfolds, entries⟩, soundBetween, -⟩ :=
        collected_of_collect closed acyclic sound down deeper
      have flat : h.IsFlat name below.entries := ⟨t, ways, there, unfolds, entries⟩
      rcases bind_eq_error_iff.mp after with here | ⟨next, added, later⟩
      · exact clash_of_addLeaves found halfway holds flat here
      · have next_halfway := halfway.nested holds flat
        rw [← entries_of_addLeaves added] at next_halfway
        exact ihRest below between next (soundBetween.cons flat) inside.rest found next_halfway
          later
  | case6 chain owner leaves table f rest name holds _ t _ on _ =>
    exact absurd (inside.off_chain acyclic holds) on

/-- A failure to tabulate declared structures is a clash. -/
theorem clash_of_tabulate_all {structures : List Structure} {table : LeafTable} {e : Error}
    (closed : h.Closed) (acyclic : h.Acyclic) (declared : structures ⊆ h.entries)
    (sound : h.Sound table) (failed : structures.foldlM h.tabulate table = .error e) :
    ∃ tag name, e = .duplicateField tag name ∧ h.Clash tag name := by
  induction structures generalizing table with
  | nil => cases failed
  | cons s rest ih =>
    obtain ⟨hs, hrest⟩ := List.cons_subset.mp declared
    rw [List.foldlM_cons] at failed
    rcases bind_eq_error_iff.mp failed with here | ⟨next, first, later⟩
    · unfold tabulate at here
      split at here
      next => cases here
      next =>
        rcases bind_eq_error_iff.mp here with collecting | ⟨_, _, finish⟩
        · exact clash_of_collect closed acyclic sound (.start hs) (Roster.find?_name_of_mem hs)
            (.start h s) collecting
        · cases finish
    · obtain ⟨soundNext, -, -⟩ := sound_of_tabulate closed acyclic hs sound first
      exact ih hrest soundNext later

/-- A structure of a flat header stands for one of the header that it was made from: the fields are
the leaves seen from it. -/
def FlatOf (h : Header) (s t : Structure) : Prop :=
  t.name = s.name ∧ t.line = s.line ∧
    ∃ ways, h.Unfolds s.fields.entries ways ∧ t.fields.entries = ways.map Way.seen

/-- A structure stands for one flat structure only. -/
theorem FlatOf.unique {t u : Structure} (first : h.FlatOf s t) (second : h.FlatOf s u) : t = u := by
  obtain ⟨name, line, ways, unfolds, entries⟩ := first
  obtain ⟨name', line', others, again, entries'⟩ := second
  cases unfolds.unique again
  obtain ⟨_, _, _⟩ := t
  obtain ⟨_, _, _⟩ := u
  cases name.trans name'.symm
  cases line.trans line'.symm
  cases Roster.ext (entries.trans entries'.symm)
  rfl

/-- A structure that has a flat one has no clash. -/
theorem FlatOf.not_clash {t : Structure} {tag name : Text} (flat : h.FlatOf s t)
    (found : h.find? tag = some s) : ¬ h.Clash tag name := by
  rintro ⟨s', found', v, w, different, hv, hw, rfl, same⟩
  cases found.symm.trans found'
  obtain ⟨-, -, ways, unfolds, entries⟩ := flat
  have distinct := t.fields.distinct
  rw [entries, List.map_map] at distinct
  exact different (List.inj_on_of_nodup_map distinct ((unfolds.mem_iff_leads v).mpr hv)
    ((unfolds.mem_iff_leads w).mpr hw) same.symm)

/-- A header is flattened exactly when it can be laid out flat and every structure has a flat one,
which then stands in its place. -/
theorem flatten_eq_ok_iff :
    h.flatten = .ok flat ↔ h.verify = .ok () ∧ List.Forall₂ h.FlatOf h.entries flat.entries := by
  constructor
  · intro ok
    obtain ⟨_, accepted, -⟩ := bind_eq_ok_iff.mp ok
    exact ⟨accepted, (forall₂_of_flatten ok).imp fun s t pair => pair.2⟩
  · rintro ⟨accepted, pairs⟩
    obtain ⟨-, closed, acyclic⟩ := verify_eq_ok_iff.mp accepted
    cases result : h.flatten with
    | ok other =>
      have pairs' : List.Forall₂ h.FlatOf h.entries other.entries :=
        (forall₂_of_flatten result).imp fun s t pair => pair.2
      have unique : Relator.RightUnique h.FlatOf := fun _ _ _ => FlatOf.unique
      exact congrArg Except.ok (Roster.ext (List.right_unique_forall₂' unique pairs' pairs))
    | error e =>
      exfalso
      rcases bind_eq_error_iff.mp result with refused | ⟨_, _, rest⟩
      · cases accepted.symm.trans refused
      rcases bind_eq_error_iff.mp rest with failed | ⟨_, _, finish⟩
      · obtain ⟨tag, name, -, s, found, clash⟩ :=
          clash_of_tabulate_all closed acyclic (List.Subset.refl _) .nil failed
        have declared := List.mem_of_find?_eq_some found
        obtain ⟨t, -, there⟩ := exists_of_mem_left pairs declared
        exact there.not_clash found ⟨_, found, clash⟩
      · cases finish

end FieldTables.Header
