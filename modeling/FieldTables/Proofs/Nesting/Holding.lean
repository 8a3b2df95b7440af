import FieldTables.Header.Basic
import Mathlib.Data.List.Chain
import Mathlib.Logic.Relation

/-!
# Structures held by value

A header is a graph: an edge leads from a structure to each structure that one of its fields holds
by value. The header can be laid out flat when every structure has a field, every edge ends at a
declared structure, and no way along the edges leads back to its start.
-/

namespace FieldTables.Header

open Relation

/-- A structure holds another one when one of its fields does. -/
def Holds (h : Header) (outer inner : Text) : Prop :=
  ∃ s ∈ h.entries, s.name = outer ∧ ∃ f ∈ s.fields.entries, f.inner = some inner

/-- Every structure has a field. -/
def Full (h : Header) : Prop := ∀ s ∈ h.entries, s.fields.entries ≠ []

/-- Every structure that is held by value is declared. -/
def Closed (h : Header) : Prop := ∀ outer inner, h.Holds outer inner → inner ∈ h.names

/-- No structure holds itself, at any depth. -/
def Acyclic (h : Header) : Prop := ∀ name, ¬ TransGen h.Holds name name

/-- A chain of structures each of which holds the next, from one structure back to itself and
without any other repetition. -/
structure IsCycle (h : Header) (chain : List Text) : Prop where
  /-- The chain takes at least one step. -/
  two_le_length : 2 ≤ chain.length
  /-- It ends where it starts. -/
  head_eq_last : chain.head? = chain.getLast?
  /-- No structure before the end is repeated. -/
  nodup_dropLast : chain.dropLast.Nodup
  /-- Each structure holds the next. -/
  linked : chain.IsChain h.Holds

variable {h : Header}

/-- A declared structure is found by its tag. -/
theorem exists_find?_of_mem_names {name : Text} (declared : name ∈ h.names) :
    ∃ s, h.find? name = some s :=
  Option.isSome_iff_exists.mp (Roster.isSome_find?_iff.mpr declared)

/-- The structure that a tag finds holds exactly what its fields do. -/
theorem holds_iff_mem_nested {name inner : Text} {s : Structure} (found : h.find? name = some s) :
    h.Holds name inner ↔ inner ∈ s.nested := by
  rw [Structure.nested, List.mem_filterMap]
  constructor
  · rintro ⟨t, ht, rfl, holds⟩
    have same : t = s := Option.some.inj ((Roster.find?_name_of_mem ht).symm.trans found)
    exact same ▸ holds
  · intro holds
    exact ⟨s, List.mem_of_find?_eq_some found, Roster.name_of_find?_eq_some found, holds⟩

/-- A cycle of structures is a structure that holds itself. -/
theorem IsCycle.not_acyclic {chain : List Text} (cycle : h.IsCycle chain) : ¬ h.Acyclic := by
  obtain ⟨long, closes, -, linked⟩ := cycle
  rcases chain with _ | ⟨a, _ | ⟨b, rest⟩⟩
  · simp at long
  · simp at long
  · have first : h.Holds a b := linked.rel
    have others : ReflTransGen h.Holds b ((b :: rest).getLast (List.cons_ne_nil b rest)) :=
      List.relationReflTransGen_of_exists_isChain_cons rest linked.tail rfl
    have back : (b :: rest).getLast (List.cons_ne_nil b rest) = a := by
      rw [List.head?_cons, List.getLast?_cons_cons, List.getLast?_eq_getLast_of_ne_nil
        (List.cons_ne_nil b rest)] at closes
      exact (Option.some.inj closes).symm
    intro acyclic
    exact acyclic a (TransGen.head' first (back ▸ others))

end FieldTables.Header
