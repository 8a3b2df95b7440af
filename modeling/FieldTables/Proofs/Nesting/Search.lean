import FieldTables.Header.Nesting
import FieldTables.Proofs.Nesting.Holding
import FieldTables.Proofs.Outcome
import Mathlib.Data.List.Nodup

/-!
# What the search for cycles finds

The search succeeds exactly when no structure holds itself. A success leaves the finished structures
in an order in which each holds only structures finished before it, which no cycle allows. A failure
reports the part of the chain between two visits of one structure, and the chain is a way along the
edges at every moment.
-/

namespace FieldTables.Header

open Outcome Relation

variable {h : Header}

/-- Each finished structure holds only structures that stand after it, which were finished
before. -/
def Ordered (h : Header) : List Text → Prop
  | [] => True
  | name :: earlier => (∀ inner, h.Holds name inner → inner ∈ earlier) ∧ h.Ordered earlier

/-- From a finished structure only structures finished before it can be reached. -/
theorem Ordered.mem_of_reaches {done : List Text} (ordered : h.Ordered done) {outer inner : Text}
    (reaches : ReflTransGen h.Holds outer inner) (finished : outer ∈ done) : inner ∈ done := by
  induction reaches with
  | refl => exact finished
  | @tail middle inner _ holds ih =>
    clear finished
    induction done with
    | nil => cases ih
    | cons name earlier step =>
      rcases List.mem_cons.mp ih with rfl | below
      · exact List.mem_cons_of_mem _ (ordered.1 inner holds)
      · exact List.mem_cons_of_mem _ (step ordered.2 below)

/-- No finished structure holds itself. -/
theorem Ordered.acyclic_at {done : List Text} (ordered : h.Ordered done) {name : Text}
    (finished : name ∈ done) : ¬ TransGen h.Holds name name := by
  induction done with
  | nil => cases finished
  | cons first earlier ih =>
    by_cases below : name ∈ earlier
    · exact ih ordered.2 below
    · obtain rfl := (List.mem_cons.mp finished).resolve_right below
      intro loop
      obtain ⟨inner, holds, back⟩ := TransGen.head'_iff.mp loop
      exact below (ordered.2.mem_of_reaches back (ordered.1 inner holds))

/-- A successful search keeps what was finished, finishes what it was asked for, and keeps the
order. -/
theorem ordered_of_search {chain names done finished : List Text} (closed : h.Closed)
    (declared : ∀ name ∈ names, name ∈ h.names) (ordered : h.Ordered done)
    (ok : h.search chain names done = .ok finished) :
    h.Ordered finished ∧ done ⊆ finished ∧ names ⊆ finished := by
  fun_induction search h chain names done generalizing finished with
  | case1 chain done =>
    cases ok
    exact ⟨ordered, List.Subset.refl _, List.nil_subset _⟩
  | case2 chain done name rest absent _ =>
    obtain ⟨s, found⟩ := exists_find?_of_mem_names (declared name List.mem_cons_self)
    cases absent.symm.trans found
  | case3 chain done name rest s _ _ visited ih =>
    have later := fun n hn => declared n (List.mem_cons_of_mem name hn)
    obtain ⟨order, kept, others⟩ := ih later ordered ok
    refine ⟨order, kept, List.cons_subset.mpr ⟨kept ?_, others⟩⟩
    exact List.contains_iff_mem.mp visited
  | case4 chain done name rest s found _ _ ihBelow ihRest =>
    obtain ⟨below, inside, after⟩ := bind_eq_ok_iff.mp ok
    have nested : ∀ inner ∈ s.nested, inner ∈ h.names := fun inner hn =>
      closed name inner ((holds_iff_mem_nested found).mpr hn)
    obtain ⟨orderBelow, keptBelow, finishedBelow⟩ := ihBelow nested ordered inside
    have orderNow : h.Ordered (name :: below) :=
      ⟨fun inner hn => finishedBelow ((holds_iff_mem_nested found).mp hn), orderBelow⟩
    have later := fun n hn => declared n (List.mem_cons_of_mem name hn)
    obtain ⟨order, kept, others⟩ := ihRest below later orderNow after
    refine ⟨order, ?_, List.cons_subset.mpr ⟨kept List.mem_cons_self, others⟩⟩
    exact fun n hn => kept (List.mem_cons_of_mem name (keptBelow hn))
  | case5 => cases ok

/-- What the chain of a search is at every moment: a way along the edges without repetition, whose
innermost structure holds everything that is searched next. -/
structure Trail (h : Header) (chain names : List Text) : Prop where
  /-- No structure is visited inside itself. -/
  nodup : chain.Nodup
  /-- Each structure on the chain is held by the one around it. -/
  linked : chain.IsChain fun inner outer => h.Holds outer inner
  /-- The innermost structure holds what is searched next. -/
  next : ∀ innermost ∈ chain.head?, ∀ name ∈ names, h.Holds innermost name

/-- A search that starts with no structure on its chain is on a trail. -/
theorem Trail.start (names : List Text) : h.Trail [] names where
  nodup := List.nodup_nil
  linked := .nil
  next := fun _ hnone => by cases hnone

/-- What is searched after the first structure stays on the trail. -/
theorem Trail.rest {chain rest : List Text} {name : Text} (trail : h.Trail chain (name :: rest)) :
    h.Trail chain rest where
  nodup := trail.nodup
  linked := trail.linked
  next := fun innermost hi n hn => trail.next innermost hi n (List.mem_cons_of_mem name hn)

/-- A step down to a structure off the chain stays on the trail. -/
theorem Trail.down {chain rest : List Text} {name : Text} {s : Structure}
    (trail : h.Trail chain (name :: rest)) (found : h.find? name = some s) (off : name ∉ chain) :
    h.Trail (name :: chain) s.nested where
  nodup := List.nodup_cons.mpr ⟨off, trail.nodup⟩
  linked := List.isChain_cons.mpr
    ⟨fun outer ho => trail.next outer ho name List.mem_cons_self, trail.linked⟩
  next := by
    intro innermost hi inner hn
    obtain rfl := Option.some.inj hi
    exact (holds_iff_mem_nested found).mpr hn

/-- A structure that is met again closes a cycle. -/
theorem Trail.isCycle {chain rest : List Text} {name : Text}
    (trail : h.Trail chain (name :: rest)) (on : name ∈ chain) : h.IsCycle (cycle chain name) := by
  obtain ⟨before, after, split, fresh⟩ := List.eq_append_cons_of_mem (List.mem_reverse.mpr on)
  have whole : cycle chain name = (name :: after) ++ [name] := by
    have skipped : ∀ n ∈ before, (n != name) = true := by
      intro n hn
      exact bne_iff_ne.mpr fun same => fresh (same ▸ hn)
    rw [cycle, split, List.dropWhile_append_of_pos skipped,
      List.dropWhile_cons_of_neg (by simp)]
  have linked : (before ++ name :: after).IsChain h.Holds :=
    split ▸ List.isChain_reverse.mpr trail.linked
  have once : (before ++ name :: after).Nodup := split ▸ List.nodup_reverse.mpr trail.nodup
  have back : ∀ innermost ∈ (name :: after).getLast?, h.Holds innermost name := by
    intro innermost hlast
    refine trail.next innermost ?_ name List.mem_cons_self
    rw [← List.getLast?_reverse, split, List.getLast?_append, hlast]
    rfl
  rw [whole]
  refine ⟨by simp, ?_, ?_, ?_⟩
  · rw [List.getLast?_concat]
    rfl
  · rw [List.dropLast_concat]
    exact (List.nodup_append.mp once).2.1
  · exact linked.right_of_append.append (.singleton name) (by simpa using back)

/-- A search that fails reports a cycle. -/
theorem isCycle_of_search {chain names done found : List Text} (trail : h.Trail chain names)
    (failed : h.search chain names done = .error found) : h.IsCycle found := by
  fun_induction search h chain names done with
  | case1 => cases failed
  | case2 chain done name rest _ ih => exact ih trail.rest failed
  | case3 chain done name rest s _ _ _ ih => exact ih trail.rest failed
  | case4 chain done name rest s found off _ ihBelow ihRest =>
    have outside : name ∉ chain := by simpa using off
    rcases bind_eq_error_iff.mp failed with inside | ⟨below, -, after⟩
    · exact ihBelow (trail.down found outside) inside
    · exact ihRest below trail.rest after
  | case5 chain done name rest s _ on =>
    cases failed
    exact trail.isCycle (by simpa using on)

/-- When every structure that is held is declared, the search succeeds exactly when no structure
holds itself. -/
theorem search_isOk_iff_acyclic (closed : h.Closed) :
    (∃ done, h.search [] h.names [] = .ok done) ↔ h.Acyclic := by
  constructor
  · rintro ⟨done, ok⟩ name loop
    have start : h.Ordered [] := trivial
    obtain ⟨order, -, finished⟩ := ordered_of_search closed (fun _ hn => hn) start ok
    have declared : name ∈ h.names := by
      obtain ⟨outer, -, holds⟩ := TransGen.tail'_iff.mp loop
      exact closed outer name holds
    exact order.acyclic_at (finished declared) loop
  · intro acyclic
    cases result : h.search [] h.names [] with
    | ok done => exact ⟨done, rfl⟩
    | error chain => exact absurd acyclic (isCycle_of_search (.start _) result).not_acyclic

end FieldTables.Header
