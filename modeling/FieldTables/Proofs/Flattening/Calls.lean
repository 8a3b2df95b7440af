import FieldTables.Proofs.Flattening.Table
import FieldTables.Proofs.Nesting.Calls

/-!
# The flattening on a stack

The calls of the flattening that are open follow the fields held by value, so in a header without
cycles they repeat nothing and are never more than the structures, and one more that returns at
once. A structure whose fields are walked through is on this chain or finished, and a call on a
finished one returns at once, so nothing is walked through twice.
-/

namespace FieldTables

open Outcome

namespace Header

variable {h : Header} {s : Structure} {frames : Nat} {name owner : Text} {f : Field}
  {leaves below : Roster Field} {chain : List Text} {table : LeafTable} {w w' : Walks}

/-- What the walks are at every moment: a structure that has been walked through is finished or on
the chain. -/
structure Walked (h : Header) (chain : List Text) (w : Walks) : Prop where
  /-- What has been walked through is finished, or its walk is not over. -/
  covers : ∀ n, n ∈ w.walks ↔ (w.table.lookup n).isSome = true ∨ n ∈ chain
  /-- Nothing has been walked through twice. -/
  once : w.walks.Nodup
  /-- No structure is flattened inside itself. -/
  nodup : chain.Nodup
  /-- Only declared structures are flattened. -/
  declared : chain ⊆ h.names

/-- Nothing is walked through at the start. -/
theorem Walked.start (h : Header) : h.Walked [] {} where
  covers := by simp
  once := .nil
  nodup := .nil
  declared := List.nil_subset _

/-- There are no more open walks than structures. -/
theorem Walked.length_le (walked : h.Walked chain w) : chain.length ≤ h.size := by
  have within := (walked.nodup.subperm walked.declared).length_le
  rwa [Roster.names, List.length_map] at within

/-- There is a frame left for a call. -/
theorem Walked.exists_frames (walked : h.Walked chain w)
    (enough : h.size + 1 ≤ frames + chain.length) : ∃ n, frames = n + 1 :=
  Nat.exists_eq_add_one.mpr (by have few := walked.length_le; omega)

/-- The walk through a structure begins. -/
def Walks.enter (w : Walks) (name : Text) : Walks := { w with walks := name :: w.walks }

/-- A structure is finished with its leaves. -/
def Walks.leave (w : Walks) (name : Text) (leaves : Roster Field) : Walks :=
  { w with table := (name, leaves) :: w.table }

/-- The walk through a structure begins that is not finished and not on the chain. -/
theorem Walked.enter (walked : h.Walked chain w) (found : h.find? name = some s)
    (off : name ∉ chain) (new : w.table.lookup name = none) :
    h.Walked (name :: chain) (w.enter name) where
  covers n := by rw [Walks.enter, List.mem_cons, List.mem_cons, walked.covers, or_left_comm]
  once := List.nodup_cons.mpr ⟨fun mem => by simpa [new, off] using (walked.covers name).mp mem,
    walked.once⟩
  nodup := List.nodup_cons.mpr ⟨off, walked.nodup⟩
  declared := List.cons_subset.mpr
    ⟨Roster.isSome_find?_iff.mp (by rw [found]; rfl), walked.declared⟩

/-- The innermost structure is finished. -/
theorem Walked.leave (walked : h.Walked (name :: chain) w) (leaves : Roster Field) :
    h.Walked chain (w.leave name leaves) where
  covers n := by
    have here : (List.lookup n ((name, leaves) :: w.table)).isSome = true ↔
        n = name ∨ (w.table.lookup n).isSome = true := by
      rw [List.lookup_cons]
      split
      next same => simp [beq_iff_eq.mp same]
      next other => rw [or_iff_right (ne_of_beq_false other)]
    rw [Walks.leave, here, walked.covers, List.mem_cons, or_left_comm, or_assoc]
  once := walked.once
  nodup := (List.nodup_cons.mp walked.nodup).2
  declared := (List.cons_subset.mp walked.declared).2

theorem resolve_known (known : (w.table.lookup name).isSome = true) :
    h.resolve (frames + 1) name w = (.ok (), w) := by
  rw [resolve]
  refine (run_bind_of_ok rfl).trans ?_
  rw [if_pos known]
  rfl

theorem resolve_undeclared (new : w.table.lookup name = none) (absent : h.find? name = none) :
    h.resolve (frames + 1) name w = (.ok (), w) := by
  rw [resolve, absent]
  refine (run_bind_of_ok rfl).trans ?_
  rw [new]
  rfl

theorem resolve_new (new : w.table.lookup name = none) (found : h.find? name = some s) :
    h.resolve (frames + 1) name w =
      (s.fields.entries.foldlM (addFlat (h.resolve frames) name) .empty >>= fun leaves =>
        modify (·.leave name leaves)) (w.enter name) := by
  have own : s.name = name := Roster.name_of_find?_eq_some found
  subst own
  rw [resolve, found]
  refine (run_bind_of_ok rfl).trans ?_
  rw [new]
  rfl

/-- A leaf adds itself. -/
theorem addFlat_leaf {flatten : Text → ExceptT Halt (StateM Walks) Unit} (leaf : f.inner = none) :
    addFlat flatten owner leaves f = attempt (addLeaf owner leaves f) := by
  rw [addFlat, leaf]

/-- A field that holds a structure adds its leaves when it is flattened. -/
theorem addFlat_nested {flatten : Text → ExceptT Halt (StateM Walks) Unit}
    (holds : f.inner = some name) (ok : flatten name w = (.ok (), w'))
    (known : w'.table.lookup name = some below) :
    addFlat flatten owner leaves f w =
      attempt ((below.entries.map f.through).foldlM (addLeaf owner) leaves) w' := by
  rw [addFlat, holds]
  refine (run_bind_of_ok ok).trans ((run_bind_of_ok rfl).trans ?_)
  rw [known]

/-- A field adds nothing for a structure that is not declared. -/
theorem addFlat_absent {flatten : Text → ExceptT Halt (StateM Walks) Unit}
    (holds : f.inner = some name) (ok : flatten name w = (.ok (), w'))
    (unknown : w'.table.lookup name = none) :
    addFlat flatten owner leaves f w = attempt (.ok leaves) w' := by
  rw [addFlat, holds]
  refine (run_bind_of_ok ok).trans ((run_bind_of_ok rfl).trans ?_)
  rw [unknown]
  rfl

theorem addFlat_error {flatten : Text → ExceptT Halt (StateM Walks) Unit} {e : Halt}
    (holds : f.inner = some name) (failed : flatten name w = (.error e, w')) :
    addFlat flatten owner leaves f w = (.error e, w') := by
  rw [addFlat, holds]
  exact run_bind_of_error failed

/-- A run collects as the flattening without a stack does: the same leaves and the same table, or
the same error. -/
def Collects (h : Header) (chain : List Text) :
    Except Error (Roster Field × LeafTable) → Except Halt (Roster Field) × Walks → Prop
  | .ok (leaves, table), run => run.1 = .ok leaves ∧ run.2.table = table ∧ h.Walked chain run.2
  | .error e, run => run.1 = .error (.failed e) ∧ run.2.walks.Nodup

/-- A call finishes a structure with the leaves that are collected, or it fails with their error. -/
def Finishes (h : Header) (chain : List Text) (name : Text) :
    Except Error (Roster Field × LeafTable) → Except Halt Unit × Walks → Prop
  | .ok (leaves, table), run =>
    run.1 = .ok () ∧ run.2.table = (name, leaves) :: table ∧ h.Walked chain run.2
  | .error e, run => run.1 = .error (.failed e) ∧ run.2.walks.Nodup

/-- A call on a structure that is not finished finishes it with what its fields come to. -/
theorem finishes_resolve {found : Except Error (Roster Field × LeafTable)}
    (new : w.table.lookup name = none) (declared : h.find? name = some s)
    (walk : h.Collects (name :: chain) found
      (s.fields.entries.foldlM (addFlat (h.resolve frames) name) .empty (w.enter name))) :
    h.Finishes chain name found (h.resolve (frames + 1) name w) := by
  rw [resolve_new new declared]
  cases found with
  | error e =>
    rw [run_bind_of_error (Prod.ext walk.1 rfl)]
    exact ⟨rfl, walk.2⟩
  | ok found =>
    obtain ⟨leaves, table⟩ := found
    obtain ⟨ok, grown, walked⟩ := walk
    rw [run_bind_of_ok (Prod.ext ok rfl)]
    exact ⟨rfl, congrArg ((name, leaves) :: ·) grown, walked.leave leaves⟩

/-- A step that may fail is followed by the same on both sides. -/
theorem collects_attempt {x : Except Error (Roster Field)}
    {next : Roster Field → Except Error (Roster Field × LeafTable)}
    {run : Roster Field → ExceptT Halt (StateM Walks) (Roster Field)} (walked : h.Walked chain w)
    (later : ∀ leaves, h.Collects chain (next leaves) (run leaves w)) :
    h.Collects chain (x >>= next) ((attempt x >>= run) w) := by
  cases x with
  | error e => exact ⟨rfl, walked.once⟩
  | ok leaves => exact later leaves

/-- With a frame for every structure that is not on the chain and one more, the fields of a
structure come to what they are collected to, in a header without cycles. -/
theorem collects_foldlM {fields : List Field} (acyclic : h.Acyclic)
    (inside : h.Inside chain owner fields) (walked : h.Walked chain w) (same : w.table = table)
    (enough : h.size + 1 ≤ frames + chain.length) :
    h.Collects chain (h.collect chain owner fields leaves table)
      (fields.foldlM (addFlat (h.resolve frames) owner) leaves w) := by
  fun_induction collect h chain owner fields leaves table generalizing w frames with
  | case1 chain owner leaves table => exact ⟨rfl, same, walked⟩
  | case2 chain owner leaves table f rest leaf ih =>
    rw [List.foldlM_cons, addFlat_leaf leaf]
    exact collects_attempt walked fun grown => ih grown inside.rest walked same enough
  | case3 chain owner leaves table f rest name holds below known ih =>
    obtain ⟨frames, rfl⟩ := walked.exists_frames enough
    subst same
    have finished : (w.table.lookup name).isSome = true := by
      rw [known]
      rfl
    rw [List.foldlM_cons, run_bind_congr (addFlat_nested holds (resolve_known finished) known)]
    exact collects_attempt walked fun grown => ih grown inside.rest walked rfl enough
  | case4 chain owner leaves table f rest name holds new absent ih =>
    obtain ⟨frames, rfl⟩ := walked.exists_frames enough
    subst same
    rw [List.foldlM_cons, run_bind_congr (addFlat_absent holds (resolve_undeclared new absent) new)]
    exact ih inside.rest walked rfl enough
  | case5 chain owner leaves table f rest name holds new s found off ihBelow ihRest =>
    obtain ⟨frames, rfl⟩ := walked.exists_frames enough
    subst same
    have outside : name ∉ chain := by simpa using off
    have deeper : h.size + 1 ≤ frames + (name :: chain).length := by
      rw [List.length_cons]
      omega
    have walk := ihBelow (inside.down holds found) (walked.enter found outside new) rfl deeper
    have call := finishes_resolve new found walk
    rw [List.foldlM_cons]
    cases outcome : h.collect (name :: chain) name s.fields.entries .empty w.table with
    | error e =>
      rw [outcome] at call
      rw [run_bind_of_error (addFlat_error holds (Prod.ext call.1 rfl))]
      exact ⟨rfl, call.2⟩
    | ok found =>
      obtain ⟨below, between⟩ := found
      rw [outcome] at call
      obtain ⟨ok, grown, finished⟩ := call
      have known : List.lookup name (h.resolve (frames + 1) name w).2.table = some below := by
        rw [grown, List.lookup_cons_self]
      rw [run_bind_congr (addFlat_nested holds (Prod.ext ok rfl) known)]
      exact collects_attempt finished fun leaves =>
        ihRest below between leaves inside.rest finished grown enough
  | case6 chain owner leaves table f rest name holds _ s _ on _ =>
    exact absurd (inside.off_chain acyclic holds) on

/-- A run tabulates as the flattening without a stack does. -/
def Tabulates (h : Header) : Except Error LeafTable → Except Halt Unit × Walks → Prop
  | .ok table, run => run.1 = .ok () ∧ run.2.table = table ∧ h.Walked [] run.2
  | .error e, run => run.1 = .error (.failed e) ∧ run.2.walks.Nodup

/-- A call that is no part of another one tabulates its structure. -/
theorem tabulates_resolve (acyclic : h.Acyclic) (declared : s ∈ h.entries)
    (walked : h.Walked [] w) (enough : h.size + 1 ≤ frames) :
    h.Tabulates (h.tabulate w.table s) (h.resolve frames s.name w) := by
  obtain ⟨frames, rfl⟩ := walked.exists_frames enough
  rw [tabulate]
  split
  next known =>
    rw [resolve_known known]
    exact ⟨rfl, rfl, walked⟩
  next unknown =>
    have new : w.table.lookup s.name = none := Option.not_isSome_iff_eq_none.mp unknown
    have found : h.find? s.name = some s := Roster.find?_name_of_mem declared
    have walk : h.Collects [s.name] (h.collect [s.name] s.name s.fields.entries .empty w.table)
        (s.fields.entries.foldlM (addFlat (h.resolve frames) s.name) .empty (w.enter s.name)) :=
      collects_foldlM acyclic (.start declared) (walked.enter found List.not_mem_nil new) rfl enough
    have call := finishes_resolve new found walk
    cases outcome : h.collect [s.name] s.name s.fields.entries .empty w.table with
    | error e =>
      rw [outcome] at call
      exact call
    | ok found =>
      rw [outcome] at call
      exact call

/-- Calls one after the other tabulate all structures. -/
theorem tabulates_forM {structures : List Structure} (acyclic : h.Acyclic)
    (declared : structures ⊆ h.entries) (walked : h.Walked [] w) (enough : h.size + 1 ≤ frames) :
    h.Tabulates (structures.foldlM h.tabulate w.table)
      ((structures.map Structure.name).forM (h.resolve frames) w) := by
  induction structures generalizing w with
  | nil => exact ⟨rfl, rfl, walked⟩
  | cons s rest ih =>
    obtain ⟨here, others⟩ := List.cons_subset.mp declared
    have first := tabulates_resolve acyclic here walked enough
    have next : ((s :: rest).map Structure.name).forM (h.resolve frames) =
        h.resolve frames s.name >>= fun _ => (rest.map Structure.name).forM (h.resolve frames) :=
      rfl
    rw [List.foldlM_cons, next]
    cases outcome : h.tabulate w.table s with
    | error e =>
      rw [outcome] at first
      rw [run_bind_of_error (Prod.ext first.1 rfl)]
      exact ⟨rfl, first.2⟩
    | ok table =>
      rw [outcome] at first
      obtain ⟨ok, grown, walkedNext⟩ := first
      rw [run_bind_of_ok (Prod.ext ok rfl)]
      have later := ih others walkedNext
      rw [grown] at later
      exact later

/-- When all structures are in a sound table, each has been walked through. -/
theorem Walked.perm (walked : h.Walked [] w) (sound : h.Sound w.table)
    (full : ∀ s ∈ h.entries, (w.table.lookup s.name).isSome = true) : w.walks.Perm h.names := by
  refine (List.perm_ext_iff_of_nodup walked.once h.distinct).mpr fun n => ?_
  rw [walked.covers, or_iff_left List.not_mem_nil]
  constructor
  · intro known
    obtain ⟨leaves, known⟩ := Option.isSome_iff_exists.mp known
    obtain ⟨s, -, found, -, -⟩ := sound n leaves known
    exact Roster.isSome_find?_iff.mp (by rw [found]; rfl)
  · intro declared
    obtain ⟨s, mem, rfl⟩ := List.mem_map.mp declared
    exact full s mem

/-- On a stack with a frame for every structure and one more, a header is flattened as without a
stack. No structure is walked through twice, and all are when the flattening succeeds. -/
theorem flattenWithin_eq (enough : h.size + 1 ≤ frames) :
    (h.flattenWithin frames {}).1 = h.flatten.mapError .failed ∧
      (h.flattenWithin frames {}).2.walks.Nodup ∧
      ∀ flat, h.flatten = .ok flat → (h.flattenWithin frames {}).2.walks.Perm h.names := by
  rw [flattenWithin, flatten, (verifyWithin_eq enough).1]
  cases verdict : h.verify with
  | error e => exact ⟨rfl, .nil, nofun⟩
  | ok accepted =>
    obtain ⟨-, closed, acyclic⟩ := verify_eq_ok_iff.mp verdict
    have run : h.Tabulates (h.entries.foldlM h.tabulate []) (h.names.forM (h.resolve frames) {}) :=
      tabulates_forM acyclic (List.Subset.refl h.entries) (.start h) enough
    simp only [Except.mapError]
    cases outcome : h.entries.foldlM h.tabulate [] with
    | error e =>
      rw [outcome] at run
      rw [run_bind_of_error (Prod.ext run.1 rfl)]
      exact ⟨rfl, run.2, nofun⟩
    | ok table =>
      rw [outcome] at run
      obtain ⟨ok, grown, walked⟩ := run
      obtain ⟨sound, -, full⟩ := sound_of_tabulate_all closed acyclic
        (List.Subset.refl h.entries) .nil outcome
      rw [← grown] at sound full
      rw [run_bind_of_ok (Prod.ext ok rfl)]
      refine ⟨?_, walked.once, fun _ _ => walked.perm sound full⟩
      rw [← grown]
      rfl

/-- On a stack with a frame for every structure and one more, and on every larger one, no call of
the search for cycles and no call of the flattening is without a frame: both end as they do without
a stack. The search goes through the fields of no structure twice, whether there is a cycle or not.
The flattening walks through the fields of no structure twice, and once through those of each
structure when it succeeds. -/
theorem calls_bounded (h : Header) (spare : Nat) :
    ((h.verifyWithin (h.size + 1 + spare) {}).1 = h.verify.mapError .failed ∧
      (h.verifyWithin (h.size + 1 + spare) {}).2.scans.Nodup) ∧
    (h.flattenWithin (h.size + 1 + spare) {}).1 = h.flatten.mapError .failed ∧
      (h.flattenWithin (h.size + 1 + spare) {}).2.walks.Nodup ∧
      ∀ flat, h.flatten = .ok flat →
        (h.flattenWithin (h.size + 1 + spare) {}).2.walks.Perm h.names :=
  ⟨verifyWithin_eq (Nat.le_add_right _ _), flattenWithin_eq (Nat.le_add_right _ _)⟩

/-- A header in which two structures hold the same third one. -/
def diamondHeader : Header where
  entries :=
    [{ name := "box".toList, line := 1, fields :=
        ⟨[{ Field.declared "low".toList "struct side".toList 2 with inner := some "side".toList },
          { Field.declared "high".toList "struct edge".toList 3 with inner := some "edge".toList }],
          by decide⟩ },
     { name := "side".toList, line := 5, fields :=
        ⟨[{ Field.declared "at".toList "struct unit".toList 6 with inner := some "unit".toList }],
          by decide⟩ },
     { name := "edge".toList, line := 8, fields :=
        ⟨[{ Field.declared "at".toList "struct unit".toList 9 with inner := some "unit".toList }],
          by decide⟩ },
     { name := "unit".toList, line := 11, fields :=
        ⟨[Field.declared "size".toList "long".toList 12], by decide⟩ }]
  distinct := by decide

theorem calls_bounded_diamondHeader :
    diamondHeader.verify = .ok () ∧ ∃ flat, diamondHeader.flatten = .ok flat ∧
      (diamondHeader.verifyWithin 5 {}).1 = .ok () ∧
      (diamondHeader.flattenWithin 5 {}).1 = .ok flat ∧
      (diamondHeader.flattenWithin 5 {}).2.walks.Perm diamondHeader.names := by
  have accepted : diamondHeader.verify = .ok () := by decide +kernel
  have names : diamondHeader.flatten.toOption.map (fun flat => flat.names.map String.ofList) =
      some ["box", "side", "edge", "unit"] := by
    decide +kernel
  obtain ⟨flat, ok, -⟩ := exists_of_map_toOption names
  obtain ⟨⟨verdict, -⟩, run, -, walks⟩ := calls_bounded diamondHeader 0
  rw [accepted] at verdict
  rw [ok] at run
  exact ⟨accepted, flat, ok, verdict, run, walks flat ok⟩

end Header

end FieldTables
