import FieldTables.Header.Calls
import FieldTables.Proofs.Nesting.Search
import Mathlib.Data.List.Perm.Subperm

/-!
# The search for cycles on a stack

The visits that have begun are those on the chain, which repeats nothing, so the calls that are open
are never more than the structures, and one more that returns at once. A structure is marked before
its fields are gone through, so that happens once. On a stack of that size the search therefore
ends, and it answers as the search without a stack does.
-/

namespace FieldTables

open Outcome

namespace Header

variable {h : Header} {s : Structure} {frames : Nat} {name : Text}
  {names rest chain done below : List Text} {v w : Visits}

theorem search_undeclared (absent : h.find? name = none) :
    h.search chain (name :: rest) done = h.search chain rest done := by
  rw [search]
  split
  next => rfl
  next found => cases absent.symm.trans found

theorem search_again (found : h.find? name = some s) (on : name ∈ chain) :
    h.search chain (name :: rest) done = .error (cycle chain name) := by
  rw [search]
  split
  next absent => cases absent.symm.trans found
  next => simp [on]

theorem search_done (found : h.find? name = some s) (off : name ∉ chain) (visited : name ∈ done) :
    h.search chain (name :: rest) done = h.search chain rest done := by
  rw [search]
  split
  next absent => cases absent.symm.trans found
  next => simp [off, visited]

theorem search_first (found : h.find? name = some s) (off : name ∉ chain) (new : name ∉ done) :
    h.search chain (name :: rest) done =
      h.search (name :: chain) s.nested done >>= fun below =>
        h.search chain rest (name :: below) := by
  rw [search]
  split
  next absent => cases absent.symm.trans found
  next t declared =>
    obtain rfl := Option.some.inj (declared.symm.trans found)
    simp [off, new]

theorem search_nil : h.search chain [] done = .ok done := by rw [search]

/-- Names are searched one after the other. -/
theorem search_cons :
    h.search chain (name :: rest) done =
      h.search chain [name] done >>= fun done => h.search chain rest done := by
  cases found : h.find? name with
  | none =>
    rw [search_undeclared found, search_undeclared found, search_nil]
    rfl
  | some s =>
    by_cases on : name ∈ chain
    · rw [search_again found on, search_again found on]
      rfl
    · by_cases visited : name ∈ done
      · rw [search_done found on visited, search_done found on visited, search_nil]
        rfl
      · rw [search_first found on visited, search_first found on visited, bind_assoc]
        refine bind_congr fun below => ?_
        rw [search_nil]
        rfl

/-- The visit of a structure begins. -/
def Visits.enter (v : Visits) (name : Text) : Visits where
  marks := (name, .inProgress) :: v.marks
  chain := v.chain ++ [name]
  scans := name :: v.scans

/-- The visit of a structure is over. -/
def Visits.leave (v : Visits) (name : Text) : Visits where
  marks := (name, .done) :: v.marks
  chain := v.chain.dropLast
  scans := v.scans

/-- Cutting a list at the first place of an item leaves the list from that item on. -/
theorem cutFrom?_findIdx? (chain : List Text) (mem : name ∈ chain) :
    cutFrom? ((chain.findIdx? (· == name)).getD 0) chain =
      some (chain.dropWhile (· != name)) := by
  obtain ⟨before, after, rfl, fresh⟩ := List.eq_append_cons_of_mem mem
  have skipped : ∀ n ∈ before, (n != name) = true := fun n hn =>
    bne_iff_ne.mpr fun same => fresh (same ▸ hn)
  have place : (before ++ name :: after).findIdx? (· == name) = some before.length := by
    have absent : before.findIdx? (· == name) = none :=
      List.findIdx?_eq_none_iff.mpr fun n hn => by simpa using skipped n hn
    simp [List.findIdx?_append, absent, List.findIdx?_cons]
  rw [place, Option.getD_some, cutFrom?, if_pos (by simp), List.drop_left,
    List.dropWhile_append_of_pos skipped, List.dropWhile_cons_of_neg (by simp)]

theorem checkRecursion_undeclared (absent : h.find? name = none) :
    h.checkRecursion (frames + 1) name v = (.ok (), v) := by
  rw [checkRecursion, absent]
  rfl

theorem checkRecursion_done (found : h.find? name = some s)
    (mark : v.marks.lookup name = some .done) :
    h.checkRecursion (frames + 1) name v = (.ok (), v) := by
  rw [checkRecursion, found]
  refine (run_bind_of_ok rfl).trans ((run_bind_of_ok rfl).trans ?_)
  simp only [mark]
  show (Except.ok (), { v with chain := (v.chain ++ [name]).dropLast }) = _
  rw [List.dropLast_concat]

theorem checkRecursion_again (found : h.find? name = some s)
    (mark : v.marks.lookup name = some .inProgress) :
    h.checkRecursion (frames + 1) name v =
      (.error (.failed (.recursiveNesting ((v.chain ++ [name]).dropWhile (· != name)))),
        { v with chain := v.chain ++ [name] }) := by
  rw [checkRecursion, found]
  refine (run_bind_of_ok rfl).trans ((run_bind_of_ok rfl).trans ?_)
  have cut : cutFrom? (((v.chain ++ [name]).findIdx? (· == name)).getD 0) (v.chain ++ [name]) =
      some ((v.chain ++ [name]).dropWhile (· != name)) := cutFrom?_findIdx? _ (by simp)
  simp only [mark, cut]
  rfl

/-- The part of the chain from the first visit on is the cycle that a name closes. -/
theorem dropWhile_chain (chain : List Text) (name : Text) :
    (chain.reverse ++ [name]).dropWhile (· != name) = cycle chain name := by
  rw [cycle, List.dropWhile_append, List.dropWhile_cons_of_neg (by simp)]
  split
  next empty => rw [List.isEmpty_iff.mp empty, List.nil_append]
  next => rfl

/-- The fields of a structure are gone through for the structures that they hold. -/
theorem forM_follow (visit : Text → ExceptT Halt (StateM Visits) Unit) (fields : List Field) :
    fields.forM (follow visit) = (fields.filterMap Field.inner).forM visit := by
  induction fields with
  | nil => rfl
  | cons f rest ih =>
    have first : (f :: rest).forM (follow visit) =
        follow visit f >>= fun _ => rest.forM (follow visit) := rfl
    rw [first, ih, List.filterMap_cons, follow]
    cases f.inner with
    | none => rfl
    | some inner => rfl

theorem checkRecursion_first (found : h.find? name = some s)
    (mark : v.marks.lookup name = none) :
    h.checkRecursion (frames + 1) name v =
      (s.nested.forM (h.checkRecursion frames) >>= fun _ => modify (·.leave name))
        (v.enter name) := by
  rw [checkRecursion, found, Structure.nested, ← forM_follow]
  refine (run_bind_of_ok rfl).trans ((run_bind_of_ok rfl).trans ?_)
  simp only [mark]
  rfl

/-- What the visits are at every moment: the marks tell the structures on the chain from those that
are finished, and each structure that has a mark was gone through once. -/
structure Tracks (h : Header) (chain done : List Text) (v : Visits) : Prop where
  /-- The chain of the visits is the chain of the search. -/
  along : v.chain = chain.reverse
  /-- The visits that have begun are those on the chain. -/
  begun : ∀ n, v.marks.lookup n = some .inProgress ↔ n ∈ chain
  /-- The visits that are over are those that the search has finished. -/
  ended : ∀ n, v.marks.lookup n = some .done ↔ n ∈ done
  /-- What has been gone through has a mark. -/
  marked : ∀ n ∈ v.scans, (v.marks.lookup n).isSome = true
  /-- Nothing has been gone through twice. -/
  once : v.scans.Nodup
  /-- No structure is visited inside itself. -/
  nodup : chain.Nodup
  /-- Only declared structures are visited. -/
  declared : chain ⊆ h.names

/-- Nothing is visited at the start. -/
theorem Tracks.start (h : Header) : h.Tracks [] [] {} where
  along := rfl
  begun := by simp
  ended := by simp
  marked := nofun
  once := .nil
  nodup := .nil
  declared := List.nil_subset _

/-- There are no more open visits than structures. -/
theorem Tracks.length_le (tracks : h.Tracks chain done v) : chain.length ≤ h.size := by
  have within := (tracks.nodup.subperm tracks.declared).length_le
  rwa [Roster.names, List.length_map] at within

theorem lookup_cons_mark (marks : List (Text × Mark)) (mark : Mark) (n : Text) :
    List.lookup n ((name, mark) :: marks) = if n = name then some mark else marks.lookup n := by
  rw [List.lookup_cons]
  split
  next same => rw [if_pos (beq_iff_eq.mp same)]
  next other => rw [if_neg (ne_of_beq_false other)]

/-- The visit of a structure without a mark begins. -/
theorem Tracks.enter (tracks : h.Tracks chain done v) (found : h.find? name = some s)
    (new : v.marks.lookup name = none) : h.Tracks (name :: chain) done (v.enter name) where
  along := by rw [Visits.enter, tracks.along, List.reverse_cons]
  begun n := by
    rw [Visits.enter, lookup_cons_mark, List.mem_cons, ← tracks.begun]
    by_cases same : n = name <;> simp [same]
  ended n := by
    rw [Visits.enter, lookup_cons_mark, ← tracks.ended]
    by_cases same : n = name <;> simp [same, new]
  marked n mem := by
    rw [Visits.enter, lookup_cons_mark]
    split
    next => rfl
    next other => exact tracks.marked n ((List.mem_cons.mp mem).resolve_left other)
  once := List.nodup_cons.mpr
    ⟨fun mem => by simpa [new] using tracks.marked name mem, tracks.once⟩
  nodup := List.nodup_cons.mpr
    ⟨fun on => by simpa [new] using (tracks.begun name).mpr on, tracks.nodup⟩
  declared := List.cons_subset.mpr
    ⟨Roster.isSome_find?_iff.mp (by rw [found]; rfl), tracks.declared⟩

/-- The innermost visit is over. -/
theorem Tracks.leave (tracks : h.Tracks (name :: chain) done v) :
    h.Tracks chain (name :: done) (v.leave name) where
  along := by rw [Visits.leave, tracks.along, List.reverse_cons, List.dropLast_concat]
  begun n := by
    have off := (List.nodup_cons.mp tracks.nodup).1
    rw [Visits.leave, lookup_cons_mark]
    split
    next same => simpa [same] using off
    next other => rw [tracks.begun, List.mem_cons, or_iff_right other]
  ended n := by
    rw [Visits.leave, lookup_cons_mark, List.mem_cons, ← tracks.ended]
    by_cases same : n = name <;> simp [same]
  marked n mem := by
    rw [Visits.leave, lookup_cons_mark]
    split
    next => rfl
    next => exact tracks.marked n mem
  once := tracks.once
  nodup := (List.nodup_cons.mp tracks.nodup).2
  declared := (List.cons_subset.mp tracks.declared).2

/-- A run answers as the search does: with the visits that track what is finished, or with the cycle
that is met. -/
def Answers (h : Header) (chain : List Text) :
    Except (List Text) (List Text) → Except Halt Unit × Visits → Prop
  | .ok done, run => run.1 = .ok () ∧ h.Tracks chain done run.2
  | .error cycle, run => run.1 = .error (.failed (.recursiveNesting cycle)) ∧ run.2.scans.Nodup

/-- Visits one after the other answer as the search of the names does, when each of them does. -/
theorem answers_forM {visit : Text → ExceptT Halt (StateM Visits) Unit}
    (each : ∀ name done v, h.Tracks chain done v →
      h.Answers chain (h.search chain [name] done) (visit name v))
    (tracks : h.Tracks chain done v) :
    h.Answers chain (h.search chain names done) (names.forM visit v) := by
  induction names generalizing done v with
  | nil =>
    rw [search_nil]
    exact ⟨rfl, tracks⟩
  | cons name rest ih =>
    have first := each name done v tracks
    have next : (name :: rest).forM visit = visit name >>= fun _ => rest.forM visit := rfl
    rw [search_cons, next]
    cases outcome : h.search chain [name] done with
    | error cycle =>
      rw [outcome] at first
      rw [run_bind_of_error (Prod.ext first.1 rfl)]
      exact ⟨rfl, first.2⟩
    | ok finished =>
      rw [outcome] at first
      rw [run_bind_of_ok (Prod.ext first.1 rfl)]
      exact ih first.2

/-- With a frame for every structure that is not on the chain and one more, a visit answers as the
search does. -/
theorem answers_checkRecursion (enough : h.size + 1 ≤ frames + chain.length)
    (tracks : h.Tracks chain done v) :
    h.Answers chain (h.search chain [name] done) (h.checkRecursion frames name v) := by
  induction frames generalizing name chain done v with
  | zero =>
    have few := tracks.length_le
    omega
  | succ frames ih =>
    cases found : h.find? name with
    | none =>
      rw [checkRecursion_undeclared found, search_undeclared found, search_nil]
      exact ⟨rfl, tracks⟩
    | some s =>
      cases mark : v.marks.lookup name with
      | none =>
        have off : name ∉ chain := fun on => by simpa [mark] using (tracks.begun name).mpr on
        have new : name ∉ done := fun old => by simpa [mark] using (tracks.ended name).mpr old
        have room : h.size + 1 ≤ frames + (name :: chain).length := by
          rw [List.length_cons]
          omega
        have below : h.Answers (name :: chain) (h.search (name :: chain) s.nested done)
            (s.nested.forM (h.checkRecursion frames) (v.enter name)) :=
          answers_forM (fun _ _ _ inside => ih room inside) (tracks.enter found mark)
        rw [checkRecursion_first found mark, search_first found off new]
        cases outcome : h.search (name :: chain) s.nested done with
        | error cycle =>
          rw [outcome] at below
          rw [run_bind_of_error (Prod.ext below.1 rfl)]
          exact ⟨rfl, below.2⟩
        | ok finished =>
          rw [outcome] at below
          rw [run_bind_of_ok (Prod.ext below.1 rfl)]
          have last : h.search chain [] (name :: finished) = .ok (name :: finished) := search_nil
          exact (congrArg (h.Answers chain · _) last).mpr ⟨rfl, below.2.leave⟩
      | some visit =>
        cases visit with
        | inProgress =>
          rw [checkRecursion_again found mark,
            search_again found ((tracks.begun name).mp mark), tracks.along, dropWhile_chain]
          exact ⟨rfl, tracks.once⟩
        | done =>
          have old := (tracks.ended name).mp mark
          have off : name ∉ chain := fun on => by
            cases mark.symm.trans ((tracks.begun name).mpr on)
          rw [checkRecursion_done found mark, search_done found off old, search_nil]
          exact ⟨rfl, tracks⟩

/-- On a stack with a frame for every structure and one more, the visits of all structures answer as
the search does. -/
theorem answers_checkAll (enough : h.size + 1 ≤ frames) :
    h.Answers [] (h.search [] h.names []) (h.checkAll frames {}) := by
  refine answers_forM (fun name done v tracks => ?_) (.start h)
  have alone : { v with chain := [] } = v := by
    obtain ⟨marks, chain, scans⟩ := v
    obtain rfl : chain = [] := tracks.along
    rfl
  have visit : h.Answers [] (h.search [] [name] done) (h.checkRecursion frames name v) :=
    answers_checkRecursion enough tracks
  rw [← alone] at visit
  exact visit

/-- On such a stack the verdict on a header is the one without a stack, and no structure is gone
through twice. -/
theorem verifyWithin_eq (enough : h.size + 1 ≤ frames) :
    (h.verifyWithin frames {}).1 = h.verify.mapError .failed ∧
      (h.verifyWithin frames {}).2.scans.Nodup := by
  rw [verifyWithin, verify]
  cases h.emptyStructure? <|> h.unresolved? with
  | some e => exact ⟨rfl, .nil⟩
  | none =>
    have visits := answers_checkAll enough
    cases outcome : h.search [] h.names [] with
    | ok done =>
      rw [outcome] at visits
      exact ⟨visits.1, visits.2.once⟩
    | error cycle =>
      rw [outcome] at visits
      exact visits

end Header
end FieldTables
