import FieldTables.Error
import FieldTables.Header.Basic

/-!
# Nesting

A header can be laid out flat when every structure has a field, every structure held by value is
declared, and no structure holds itself, at any depth. The last condition is decided by a
depth-first search that follows the fields held by value and visits each structure once.

The search ends because each step down puts one more declared structure on the chain: `room` counts
the fields of those that are not on it, and each of these structures once more, and
`room_cons_add_le` states what a step takes from it.
-/

namespace FieldTables.Header

/-- What a structure leaves to see: nothing when it is on the chain, else its fields and itself. -/
def weight (chain : List Text) (s : Structure) : Nat :=
  if chain.contains s.name then 0 else s.fields.size + 1

/-- What some structures leave to see together. -/
def weights (chain : List Text) : List Structure → Nat
  | [] => 0
  | s :: rest => weight chain s + weights chain rest

/-- How much a search can still see. -/
def room (h : Header) (chain : List Text) : Nat := weights chain h.entries

private theorem weight_cons_le (name : Text) (chain : List Text) (s : Structure) :
    weight (name :: chain) s ≤ weight chain s := by
  unfold weight
  grind

private theorem weights_cons_le (name : Text) (chain : List Text) (entries : List Structure) :
    weights (name :: chain) entries ≤ weights chain entries := by
  induction entries with
  | nil => exact Nat.le_refl 0
  | cons s rest ih =>
    have here := weight_cons_le name chain s
    rw [weights, weights]
    omega

private theorem weights_cons_add_le {entries : List Structure} {chain : List Text}
    {s : Structure} (declared : s ∈ entries) (off : chain.contains s.name = false) :
    weights (s.name :: chain) entries + (s.fields.size + 1) ≤ weights chain entries := by
  induction entries with
  | nil => simp at declared
  | cons t rest ih =>
    rw [weights, weights]
    rcases List.mem_cons.mp declared with rfl | below
    · have gone : weight (s.name :: chain) s = 0 := by simp [weight]
      have seen : weight chain s = s.fields.size + 1 := by rw [weight, off]; rfl
      have others := weights_cons_le s.name chain rest
      omega
    · have here := weight_cons_le s.name chain t
      have others := ih below
      omega

/-- A step down to a structure off the chain leaves room for its fields and more. -/
theorem room_cons_add_le {h : Header} {chain : List Text} {name : Text} {s : Structure}
    (found : h.find? name = some s) (off : chain.contains name = false) :
    h.room (name :: chain) + (s.fields.size + 1) ≤ h.room chain := by
  have hname : s.name = name := Roster.name_of_find?_eq_some found
  subst hname
  exact weights_cons_add_le (List.mem_of_find?_eq_some found) off

/-- The chain from the first visit of a name down to its repetition. -/
def cycle (chain : List Text) (name : Text) : List Text :=
  chain.reverse.dropWhile (· != name) ++ [name]

/--
Visit the structures of the given names and all that they hold. `chain` lists the structures being
visited, innermost first, and `done` those whose visit is over; the result is the new `done`, or the
cycle that was met.
-/
def search (h : Header) (chain names done : List Text) : Except (List Text) (List Text) :=
  match names with
  | [] => .ok done
  | name :: rest =>
    match _found : h.find? name with
    | none => search h chain rest done
    | some s =>
      if _off : chain.contains name = false then
        if done.contains name then search h chain rest done
        else do
          let below ← search h (name :: chain) s.nested done
          search h chain rest (name :: below)
      else .error (cycle chain name)
  termination_by h.room chain + names.length
  decreasing_by
    · simp
    · simp
    · have below := room_cons_add_le _found _off
      have few : s.nested.length ≤ s.fields.size := List.length_filterMap_le ..
      simp only [List.length_cons]
      omega
    · simp

/-- The first structure without fields. -/
def emptyStructure? (h : Header) : Option Error :=
  (h.entries.find? fun s => s.fields.isEmpty).map fun s => .emptyStructure s.name

/-- The first field that holds an undeclared structure. -/
def unresolved? (h : Header) : Option Error :=
  h.entries.findSome? fun s =>
    s.fields.entries.findSome? fun f =>
      match f.inner with
      | some name =>
        if (h.find? name).isNone then some (.unresolvedReference s.name f.name name) else none
      | none => none

/-- Whether the header can be laid out flat; of several reasons against it, an empty structure
comes first and a cycle last. -/
def verify (h : Header) : Except Error Unit :=
  match h.emptyStructure? <|> h.unresolved? with
  | some e => .error e
  | none =>
    match h.search [] h.names [] with
    | .ok _ => .ok ()
    | .error chain => .error (.recursiveNesting chain)

end FieldTables.Header
