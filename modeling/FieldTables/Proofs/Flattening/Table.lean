import FieldTables.Proofs.Flattening.Unfolding
import FieldTables.Proofs.Nesting.Verification
import FieldTables.Proofs.Outcome

/-!
# The table of flattened structures

The table never changes what is collected: each of its entries is the unfolding of the structure it
names. In a header that can be laid out flat every field held by value leads to a declared structure
off the chain, so no field is passed over without its leaves.
-/

namespace FieldTables.Header

open Outcome Relation

variable {h : Header}

/-- The fields that a structure unfolds to, seen from outside. -/
def IsFlat (h : Header) (name : Text) (leaves : List Field) : Prop :=
  ∃ s ways, h.find? name = some s ∧ h.Unfolds s.fields.entries ways ∧ leaves = ways.map Way.seen

/-- Every entry of a table is the unfolding of the structure that it names. -/
def Sound (h : Header) (table : LeafTable) : Prop :=
  ∀ name leaves, table.lookup name = some leaves → h.IsFlat name leaves.entries

/-- A table without entries is sound. -/
theorem Sound.nil : h.Sound [] := by
  intro name leaves hnone
  cases hnone

/-- A sound table stays sound with the unfolding of one more structure. -/
theorem Sound.cons {table : LeafTable} {name : Text} {leaves : Roster Field}
    (sound : h.Sound table) (flat : h.IsFlat name leaves.entries) :
    h.Sound ((name, leaves) :: table) := by
  intro other found hlookup
  rw [List.lookup_cons] at hlookup
  split at hlookup
  next same =>
    cases hlookup
    rw [beq_iff_eq.mp same]
    exact flat
  next => exact sound other found hlookup

/-- A table grows when every structure that it had stays in it. -/
def Extends (table grown : LeafTable) : Prop :=
  ∀ name, (table.lookup name).isSome = true → (grown.lookup name).isSome = true

private theorem extends_cons (table : LeafTable) (name : Text) (leaves : Roster Field) :
    Extends table ((name, leaves) :: table) := by
  intro other had
  rw [List.lookup_cons]
  split
  · rfl
  · exact had

private theorem isSome_lookup_cons_self (table : LeafTable) (name : Text) (leaves : Roster Field) :
    (List.lookup name ((name, leaves) :: table)).isSome = true := by simp

/-- A leaf is added at the end. -/
theorem entries_of_addLeaf {owner : Text} {leaves grown : Roster Field} {leaf : Field}
    (ok : addLeaf owner leaves leaf = .ok grown) : grown.entries = leaves.entries ++ [leaf] := by
  unfold addLeaf at ok
  split at ok
  next grown' inserted =>
    cases ok
    exact (Roster.insert?_eq_some_iff.mp inserted).2
  next => cases ok

/-- Leaves are added in order. -/
theorem entries_of_addLeaves {owner : Text} {added : List Field} {leaves grown : Roster Field}
    (ok : added.foldlM (addLeaf owner) leaves = .ok grown) :
    grown.entries = leaves.entries ++ added := by
  induction added generalizing leaves with
  | nil =>
    cases ok
    exact (List.append_nil _).symm
  | cons leaf rest ih =>
    rw [List.foldlM_cons, bind_eq_ok_iff] at ok
    obtain ⟨next, first, others⟩ := ok
    rw [ih others, entries_of_addLeaf first, List.append_assoc, List.singleton_append]

/-- What collecting the leaves of fields gives: their unfolding in order, and a sound table in which
nothing is lost. -/
structure Collected (h : Header) (fields : List Field) (leaves grown : List Field)
    (table later : LeafTable) : Prop where
  /-- The leaves of the unfolding are added in order. -/
  unfolds : ∃ ways, h.Unfolds fields ways ∧ grown = leaves ++ ways.map Way.seen
  /-- The table is sound. -/
  sound : h.Sound later
  /-- No structure leaves the table. -/
  keeps : Extends table later

private theorem Collected.leaf {f : Field} {rest leaves grown : List Field}
    {table later : LeafTable} (leaf : f.inner = none)
    (others : h.Collected rest (leaves ++ [f]) grown table later) :
    h.Collected (f :: rest) leaves grown table later := by
  obtain ⟨⟨ways, unfolds, rfl⟩, sound, keeps⟩ := others
  refine ⟨⟨_, .leaf leaf unfolds, ?_⟩, sound, keeps⟩
  rw [List.append_assoc, List.singleton_append]
  rfl

private theorem Collected.nested {f : Field} {rest below leaves grown : List Field} {name : Text}
    {table later : LeafTable} (holds : f.inner = some name) (flat : h.IsFlat name below)
    (others : h.Collected rest (leaves ++ below.map f.through) grown table later) :
    h.Collected (f :: rest) leaves grown table later := by
  obtain ⟨s, inside, found, unfoldsBelow, rfl⟩ := flat
  obtain ⟨⟨ways, unfolds, rfl⟩, sound, keeps⟩ := others
  refine ⟨⟨_, .nested holds found unfoldsBelow unfolds, ?_⟩, sound, keeps⟩
  rw [List.append_assoc, List.map_append, List.map_map, List.map_map]
  rfl

/-- Where collecting stands: the given fields are among those of the owner, and every structure on
the chain is the owner or holds it at some depth. -/
structure Inside (h : Header) (chain : List Text) (owner : Text) (fields : List Field) : Prop where
  /-- What the fields hold, the owner holds. -/
  held : ∀ f ∈ fields, ∀ name, f.inner = some name → h.Holds owner name
  /-- The owner is reached from every structure on the chain. -/
  around : ∀ outer ∈ chain, ReflTransGen h.Holds outer owner

/-- Collecting starts with all fields of a declared structure. -/
theorem Inside.start {s : Structure} (declared : s ∈ h.entries) :
    h.Inside [s.name] s.name s.fields.entries where
  held := fun f hf _ holds => ⟨s, declared, rfl, f, hf, holds⟩
  around := by
    intro outer ho
    rw [List.mem_singleton.mp ho]

theorem Inside.rest {chain : List Text} {owner : Text} {f : Field} {rest : List Field}
    (inside : h.Inside chain owner (f :: rest)) : h.Inside chain owner rest where
  held := fun g hg => inside.held g (List.mem_cons_of_mem f hg)
  around := inside.around

theorem Inside.down {chain : List Text} {owner name : Text} {f : Field}
    {rest : List Field} {s : Structure} (inside : h.Inside chain owner (f :: rest))
    (holds : f.inner = some name) (found : h.find? name = some s) :
    h.Inside (name :: chain) name s.fields.entries where
  held := by
    intro g hg inner ginner
    refine (holds_iff_mem_nested found).mpr ?_
    exact List.mem_filterMap.mpr ⟨g, hg, ginner⟩
  around := by
    intro outer ho
    rcases List.mem_cons.mp ho with rfl | ho
    · exact .refl
    · exact (inside.around outer ho).tail (inside.held f List.mem_cons_self name holds)

/-- No field leads back to the chain. -/
theorem Inside.off_chain {chain : List Text} {owner name : Text} {f : Field}
    {rest : List Field} (inside : h.Inside chain owner (f :: rest)) (acyclic : h.Acyclic)
    (holds : f.inner = some name) : chain.contains name = false := by
  have step := inside.held f List.mem_cons_self name holds
  rw [← Bool.not_eq_true, List.contains_iff_mem]
  intro on
  exact acyclic name (TransGen.tail' (inside.around name on) step)

/-- Collecting the leaves of fields of a structure gives their unfolding, whatever the table holds
already. -/
theorem collected_of_collect {chain : List Text} {owner : Text} {fields : List Field}
    {leaves grown : Roster Field} {table later : LeafTable} (closed : h.Closed)
    (acyclic : h.Acyclic) (sound : h.Sound table) (inside : h.Inside chain owner fields)
    (ok : h.collect chain owner fields leaves table = .ok (grown, later)) :
    h.Collected fields leaves.entries grown.entries table later := by
  fun_induction collect h chain owner fields leaves table generalizing grown later with
  | case1 chain owner leaves table =>
    cases ok
    exact ⟨⟨[], .nil, (List.append_nil _).symm⟩, sound, fun _ had => had⟩
  | case2 chain owner leaves table f rest leaf ih =>
    obtain ⟨next, added, others⟩ := bind_eq_ok_iff.mp ok
    have collected := ih next sound inside.rest others
    rw [entries_of_addLeaf added] at collected
    exact collected.leaf leaf
  | case3 chain owner leaves table f rest name holds below known ih =>
    obtain ⟨next, added, others⟩ := bind_eq_ok_iff.mp ok
    have collected := ih next sound inside.rest others
    rw [entries_of_addLeaves added] at collected
    exact collected.nested holds (sound name below known)
  | case4 chain owner leaves table f rest name holds _ absent _ =>
    have declared := closed owner name (inside.held f List.mem_cons_self name holds)
    obtain ⟨s, found⟩ := exists_find?_of_mem_names declared
    cases absent.symm.trans found
  | case5 chain owner leaves table f rest name holds _ s found _ ihBelow ihRest =>
    obtain ⟨⟨below, between⟩, deeper, after⟩ := bind_eq_ok_iff.mp ok
    obtain ⟨next, added, others⟩ := bind_eq_ok_iff.mp after
    obtain ⟨⟨ways, unfolds, entries⟩, soundBetween, keepsBetween⟩ :=
      ihBelow sound (inside.down holds found) deeper
    have flat : h.IsFlat name below.entries := ⟨s, ways, found, unfolds, entries⟩
    have collected := ihRest below between next (soundBetween.cons flat) inside.rest others
    rw [entries_of_addLeaves added] at collected
    obtain ⟨unfoldsAll, soundLater, keepsLater⟩ := collected.nested holds flat
    refine ⟨unfoldsAll, soundLater, fun n had => keepsLater n ?_⟩
    exact extends_cons between name below n (keepsBetween n had)
  | case6 chain owner leaves table f rest name holds _ s _ on _ =>
    exact absurd (inside.off_chain acyclic holds) on

/-- Tabulating a declared structure keeps the table sound and puts the structure in it. -/
theorem sound_of_tabulate {table later : LeafTable} {s : Structure} (closed : h.Closed)
    (acyclic : h.Acyclic) (declared : s ∈ h.entries) (sound : h.Sound table)
    (ok : h.tabulate table s = .ok later) :
    h.Sound later ∧ Extends table later ∧ (later.lookup s.name).isSome = true := by
  unfold tabulate at ok
  split at ok
  next known =>
    cases ok
    exact ⟨sound, fun _ had => had, known⟩
  next =>
    obtain ⟨⟨leaves, between⟩, collecting, finish⟩ := bind_eq_ok_iff.mp ok
    cases finish
    obtain ⟨⟨ways, unfolds, entries⟩, soundBetween, keeps⟩ :=
      collected_of_collect closed acyclic sound (.start declared) collecting
    have flat : h.IsFlat s.name leaves.entries :=
      ⟨s, ways, Roster.find?_name_of_mem declared, unfolds, entries⟩
    refine ⟨soundBetween.cons flat, fun n had => ?_, isSome_lookup_cons_self between s.name leaves⟩
    exact extends_cons between s.name leaves n (keeps n had)

/-- Tabulating structures one after the other puts all of them in a sound table. -/
theorem sound_of_tabulate_all {structures : List Structure} {table later : LeafTable}
    (closed : h.Closed) (acyclic : h.Acyclic) (declared : structures ⊆ h.entries)
    (sound : h.Sound table) (ok : structures.foldlM h.tabulate table = .ok later) :
    h.Sound later ∧ Extends table later ∧
      ∀ s ∈ structures, (later.lookup s.name).isSome = true := by
  induction structures generalizing table with
  | nil =>
    cases ok
    exact ⟨sound, fun _ had => had, fun s hs => by cases hs⟩
  | cons s rest ih =>
    rw [List.foldlM_cons, bind_eq_ok_iff] at ok
    obtain ⟨next, first, others⟩ := ok
    obtain ⟨hs, hrest⟩ := List.cons_subset.mp declared
    obtain ⟨soundNext, keepsNext, inNext⟩ := sound_of_tabulate closed acyclic hs sound first
    obtain ⟨soundLater, keepsLater, inLater⟩ := ih hrest soundNext others
    refine ⟨soundLater, fun n had => keepsLater n (keepsNext n had), ?_⟩
    intro t ht
    rcases List.mem_cons.mp ht with rfl | ht
    · exact keepsLater t.name inNext
    · exact inLater t ht

end FieldTables.Header
