import FieldTables.Proofs.File.AllOrNone

/-!
# Failures on the way

A write or a move can fail without a cause in the tree, and a write that fails may leave a part of
its text behind. Whichever one fails, replacing files either sets exactly the targets or gives back
the tree that was there, so long as no hidden file stood beside a target to begin with. After the
failure everything that is possible is done, so what was begun can be undone.
-/

namespace FieldTables

open FileTree

/-- A failure that has no cause in the tree. -/
structure Fault where
  /-- The error that the operation fails with. -/
  error : FileError
  /-- What the file holds after a write that fails, if it was opened at all. -/
  left : Option ByteArray := none

namespace Fault

/-- What a failing write leaves of a tree. -/
def spoil (fault : Fault) (t : FileTree) (p : Path) : FileTree :=
  match fault.left with
  | some content =>
    match t.write p content with
    | .ok spoiled => spoiled
    | .error _ => t
  | none => t

/-- A failing write changes nothing or leaves some bytes. -/
theorem spoil_cases (fault : Fault) (t : FileTree) (p : Path) :
    fault.spoil t p = t ∨ ∃ content, t.write p content = .ok (fault.spoil t p) := by
  unfold spoil
  cases fault.left with
  | none => exact .inl rfl
  | some content =>
    dsimp only
    cases wrote : t.write p content with
    | ok spoiled => exact .inr ⟨content, wrote⟩
    | error e => exact .inl rfl

end Fault

namespace FileTree

variable {f : FileTree → Except FileError FileTree} {spoil : Fault → FileTree → FileTree}
variable {t t' : FileTree} {outcome : Except FileError Unit}

/-- Do what changes a tree, or meet a fault and leave what it spoils. -/
def attempt (fault : Option Fault) (spoil : Fault → FileTree → FileTree)
    (f : FileTree → Except FileError FileTree) : StateM FileTree (Except FileError Unit) :=
  match fault with
  | some fault => fun t => (.error fault.error, spoil fault t)
  | none => change f

/-- What is attempted is done, or it fails and leaves the tree as it was or spoiled. -/
theorem attempt_cases {fault : Option Fault} (ran : attempt fault spoil f t = (outcome, t')) :
    (outcome = .ok () ∧ f t = .ok t') ∨
      ∃ e, outcome = .error e ∧ (t' = t ∨ ∃ fault, t' = spoil fault t) := by
  cases fault with
  | some fault =>
    cases ran
    exact .inr ⟨fault.error, rfl, .inr ⟨fault, rfl⟩⟩
  | none =>
    obtain done | ⟨e, failed, -, still⟩ := change_eq_iff.mp ran
    · exact .inl done
    · exact .inr ⟨e, failed, .inl still⟩

end FileTree

/-- A tree in which one write or move may still fail. Whatever fails, nothing fails after it without
a cause in the tree. -/
structure Failing where
  /-- The files and directories. -/
  tree : FileTree
  /-- After how many writes and moves the next one fails, and how. -/
  failure : Option (Nat × Fault)

namespace Failing

/-- The fault that the next write or move meets. -/
def next? (s : Failing) : Option Fault :=
  match s.failure with
  | some (0, fault) => some fault
  | _ => none

/-- The failure that is still to come after a write or a move. -/
def pending (s : Failing) : Except FileError Unit → Option (Nat × Fault)
  | .ok () => s.failure.map fun (count, fault) => (count - 1, fault)
  | .error _ => none

/-- Write or move, unless it is this time that it fails. -/
def attempt (spoil : Fault → FileTree → FileTree) (f : FileTree → Except FileError FileTree) :
    StateM Failing (Except FileError Unit) :=
  fun s =>
    let (outcome, t) := FileTree.attempt s.next? spoil f s.tree
    (outcome, ⟨t, s.pending outcome⟩)

instance : FileOperations (StateM Failing) where
  write p text := attempt (fun fault t => fault.spoil t p) (·.write p text.bytes)
  rename source target := attempt (fun _ t => t) (·.rename source target)
  remove p := fun s =>
    let (outcome, t) := change (·.remove p) s.tree
    (outcome, { s with tree := t })
  isFile p := fun s => ((s.tree.read p).isOk, s)
  read p := fun s => ((FileOperations.read (m := StateM FileTree) p s.tree).1, s)

variable {f : FileTree → Except FileError FileTree} {spoil : Fault → FileTree → FileTree}
variable {s s' : Failing} {outcome : Except FileError Unit}

/-- What is attempted is done, or it fails and nothing else will. -/
theorem attempt_cases (ran : attempt spoil f s = (outcome, s')) :
    (outcome = .ok () ∧ f s.tree = .ok s'.tree) ∨
      ∃ e, outcome = .error e ∧ s'.failure = none ∧
        (s'.tree = s.tree ∨ ∃ fault, s'.tree = spoil fault s.tree) := by
  rcases tried : FileTree.attempt s.next? spoil f s.tree with ⟨result, t⟩
  simp only [attempt, tried] at ran
  cases ran
  obtain ⟨rfl, done⟩ | ⟨e, rfl, left⟩ := FileTree.attempt_cases tried
  · exact .inl ⟨rfl, done⟩
  · exact .inr ⟨e, rfl, rfl, left⟩

/-- Where nothing is to fail, what is possible is done. -/
theorem attempt_calm {t : FileTree} (calm : s.failure = none) (possible : f s.tree = .ok t) :
    attempt spoil f s = (.ok (), ⟨t, none⟩) := by
  simp only [attempt, next?, pending, calm, FileTree.attempt, change, possible, Option.map_none]

/-- A tree with a failure to come acts as the tree does, and is calm after the failure. -/
theorem actsOn : ActsOn tree fun s => s.failure = none where
  write_ok ran := by
    obtain ⟨-, done⟩ | ⟨e, given, -⟩ := attempt_cases ran
    · exact done
    · cases given
  write_error {p _ _ _ _} ran := by
    obtain ⟨given, -⟩ | ⟨e, -, calm, still | ⟨fault, left⟩⟩ := attempt_cases ran
    · cases given
    · exact ⟨calm, .inl still⟩
    · rw [left]
      exact ⟨calm, fault.spoil_cases _ p⟩
  rename_ok ran := by
    obtain ⟨-, done⟩ | ⟨e, given, -⟩ := attempt_cases ran
    · exact done
    · cases given
  rename_error ran := by
    obtain ⟨given, -⟩ | ⟨e, -, calm, still | ⟨fault, left⟩⟩ := attempt_cases ran
    · cases given
    · exact ⟨calm, still⟩
    · exact ⟨calm, left⟩
  rename_calm calm possible := ⟨_, attempt_calm calm possible, rfl⟩
  remove_ok {p s t} done := by
    have removed : change (·.remove p) s.tree = (.ok (), t) :=
      change_eq_iff.mpr (.inl ⟨rfl, done⟩)
    exact congrArg Prod.snd removed
  remove_error {p s e} failed := by
    have refused : change (·.remove p) s.tree = (.error e, s.tree) :=
      change_eq_iff.mpr (.inr ⟨e, rfl, failed, rfl⟩)
    exact congrArg Prod.snd refused
  remove_calm calm := calm
  isFile := ⟨rfl, rfl⟩

end Failing

namespace FileTree

variable {t : FileTree} {p : Path} {l : Location}

/-- No hidden file stands beside any of the targets. -/
def Clear (t : FileTree) (targets : List Path) : Prop :=
  ∀ p ∈ targets, ∀ l, t.Reserved p l → t.get? l = none

/-- The locations of the hidden files beside a target. -/
def hidden (t : FileTree) (p : Path) : List Location :=
  [p.sibling "tmp".toList, p.sibling "bak".toList].filterMap t.location?

theorem mem_hidden_iff : l ∈ t.hidden p ↔ t.Reserved p l := by
  simp [hidden, Reserved, location?_eq_some_iff]

instance (targets : List Path) : Decidable (t.Clear targets) :=
  decidable_of_iff (∀ p ∈ targets, ∀ l ∈ t.hidden p, (t.get? l).isNone)
    (by simp only [mem_hidden_iff, Option.isNone_iff_eq_none]; rfl)

/-- What replacing files does to a tree without hidden files beside the targets: it sets the
targets and nothing else, or it leaves the tree as it was. -/
structure SetOrSame (t : FileTree) (outputs : List (Path × Text))
    (ran : Except FileError Unit × FileTree) : Prop where
  /-- Paths are resolved from the same directory. -/
  working : ran.2.working = t.working
  /-- After a success every target has its new text. -/
  replaced : ran.1 = .ok () →
    ∀ o ∈ outputs, ∃ l, t.Names o.1 l ∧ ran.2.get? l = some (.file o.2.bytes)
  /-- After a success every other place is as it was. -/
  elsewhere : ran.1 = .ok () →
    ∀ l, (∀ o ∈ outputs, ¬t.Names o.1 l) → ran.2.get? l = t.get? l
  /-- After a failure every place is as it was. -/
  same : ∀ e, ran.1 = .error e → ∀ l, ran.2.get? l = t.get? l
  /-- In either case no hidden file is left. -/
  cleared : ran.2.Clear (outputs.map Prod.fst)

/-- What is restored beside no hidden file is as it was. -/
theorem Restored.get?_eq {t' : FileTree} (restored : t.Restored p t')
    (clear : ∀ l, t.Reserved p l → t.get? l = none) (near : t.Near p l) :
    t'.get? l = t.get? l := by
  rcases near with names | hidden
  · exact restored.target l names
  · rcases restored.cleared l hidden with same | gone
    · exact same
    · rw [gone, clear l hidden]

/-- What was cleared beside no hidden file has none. -/
theorem Cleared.get?_eq_none {t' : FileTree} (cleared : t.Cleared p t')
    (clear : ∀ l, t.Reserved p l → t.get? l = none) (hidden : t.Reserved p l) :
    t'.get? l = none := by
  rcases cleared l hidden with same | gone
  · rw [same, clear l hidden]
  · exact gone

end FileTree

open FileTree

/-- Whichever write or move fails, replacing files sets exactly the targets or leaves the tree as it
was. -/
theorem replaceFiles_setOrSame (t : FileTree) (outputs : List (Path × Text))
    (failure : Option (Nat × Fault)) (apart : t.AllApart (outputs.map Prod.fst))
    (clear : t.Clear (outputs.map Prod.fst)) :
    t.SetOrSame outputs
      (Prod.map id Failing.tree (replaceFiles (m := StateM Failing) outputs ⟨t, failure⟩)) := by
  rcases ran : replaceFiles (m := StateM Failing) outputs ⟨t, failure⟩ with ⟨outcome, s⟩
  obtain ⟨within, replaced, restored⟩ := Failing.actsOn.replaceFiles apart ran
  have free : ∀ o ∈ outputs, ∀ l, t.Reserved o.1 l → t.get? l = none := fun o mem =>
    clear o.1 (List.mem_map_of_mem mem)
  constructor
  case working => exact within.same.working
  case replaced => exact fun done o mem => (replaced done o mem).there
  case elsewhere =>
    intro done l other
    by_cases near : t.NearSome (outputs.map Prod.fst) l
    · obtain ⟨_, listed, near⟩ := near
      obtain ⟨o, mem, rfl⟩ := List.mem_map.mp listed
      have hidden := near.resolve_left (other o mem)
      exact ((replaced done o mem).cleared.get?_eq_none (free o mem) hidden).trans
        (free o mem l hidden).symm
    · exact within.elsewhere l near
  case same =>
    intro e failed l
    by_cases near : t.NearSome (outputs.map Prod.fst) l
    · obtain ⟨_, listed, near⟩ := near
      obtain ⟨o, mem, rfl⟩ := List.mem_map.mp listed
      exact (restored e failed o mem).get?_eq (free o mem) near
    · exact within.elsewhere l near
  case cleared =>
    intro p listed l hidden
    obtain ⟨o, mem, rfl⟩ := List.mem_map.mp listed
    have hidden' : t.Reserved o.1 l := hidden.imp within.same.names_iff.mp within.same.names_iff.mp
    cases outcome with
    | ok _ => exact (replaced rfl o mem).cleared.get?_eq_none (free o mem) hidden'
    | error e => exact (restored e rfl o mem).cleared.get?_eq_none (free o mem) hidden'

/-- A tree in which the first of two targets has a file and the second has none. -/
def firstTargetOnly : FileTree where
  entries := [(["enum.h".toList], .file (Text.bytes "OLD".toList))]

/-- Where the last move fails, with the first target already replaced, the old file is back. -/
theorem replaceFiles_setOrSame_firstTargetOnly :
    firstTargetOnly.AllApart (twoTargets.map Prod.fst) ∧
      firstTargetOnly.Clear (twoTargets.map Prod.fst) ∧
        (replaceFiles (m := StateM Failing) twoTargets
          ⟨firstTargetOnly, some (4, { error := .busy })⟩).1 = .error .busy ∧
          firstTargetOnly.SetOrSame twoTargets (Prod.map id Failing.tree
            (replaceFiles (m := StateM Failing) twoTargets
              ⟨firstTargetOnly, some (4, { error := .busy })⟩)) := by
  have apart : firstTargetOnly.AllApart (twoTargets.map Prod.fst) := by decide +kernel
  have clear : firstTargetOnly.Clear (twoTargets.map Prod.fst) := by decide +kernel
  have failed : (replaceFiles (m := StateM Failing) twoTargets
    ⟨firstTargetOnly, some (4, { error := .busy })⟩).1 = .error .busy := by decide +kernel
  exact ⟨apart, clear, failed, replaceFiles_setOrSame firstTargetOnly twoTargets _ apart clear⟩

end FieldTables
