import FieldTables.Proofs.File.Failure

/-!
# Runs that are remembered

A run can be cut off between any two of its operations, and any of them may fail, also those that
undo what was done. A context that remembers the trees before each operation makes all these points
visible.
-/

namespace FieldTables

open FileTree

/-- A tree with what it was before each operation, in which any operation may fail. -/
structure Recording where
  /-- The files and directories. -/
  tree : FileTree
  /-- The trees before the operations so far, the last one first. -/
  past : List FileTree := []
  /-- Which of the operations to come fail without a cause in the tree, in their order. -/
  faults : List (Option Fault) := []

namespace Recording

open ActsOn (run_bind)

/-- The trees between the operations, the last one first. -/
def points (r : Recording) : List FileTree := r.tree :: r.past

/-- Do what changes the tree, or meet the fault that is next, and remember the tree before. -/
def attempt (spoil : Fault → FileTree → FileTree) (f : FileTree → Except FileError FileTree) :
    StateM Recording (Except FileError Unit) :=
  fun r =>
    let (outcome, t) := FileTree.attempt r.faults.head?.join spoil f r.tree
    (outcome, ⟨t, r.points, r.faults.tail⟩)

instance : FileOperations (StateM Recording) where
  write p text := attempt (fun fault t => fault.spoil t p) (·.write p text.bytes)
  rename source target := attempt (fun _ t => t) (·.rename source target)
  remove p := attempt (fun _ t => t) (·.remove p)
  isFile p := fun r => ((r.tree.read p).isOk, r)
  read p := fun r => ((FileOperations.read (m := StateM FileTree) p r.tree).1, r)

variable {f : FileTree → Except FileError FileTree} {spoil : Fault → FileTree → FileTree}
variable {r r' : Recording} {p q : Path} {outcome : Except FileError Unit}

/-- What is attempted is done, or it fails and leaves the tree as it was or spoiled. -/
theorem attempt_cases (ran : attempt spoil f r = (outcome, r')) :
    r'.past = r.points ∧
      ((outcome = .ok () ∧ f r.tree = .ok r'.tree) ∨
        ∃ e, outcome = .error e ∧
          (r'.tree = r.tree ∨ ∃ fault, r'.tree = spoil fault r.tree)) := by
  rcases tried : FileTree.attempt r.faults.head?.join spoil f r.tree with ⟨result, t⟩
  simp only [attempt, tried] at ran
  cases ran
  exact ⟨rfl, FileTree.attempt_cases tried⟩

/-- A write is done, or it fails and leaves the tree as it was or with some bytes. -/
theorem write_cases {text : Text}
    (ran : FileOperations.write (m := StateM Recording) p text r = (outcome, r')) :
    r'.past = r.points ∧
      ((outcome = .ok () ∧ r.tree.write p text.bytes = .ok r'.tree) ∨
        ∃ e, outcome = .error e ∧
          (r'.tree = r.tree ∨ ∃ content, r.tree.write p content = .ok r'.tree)) := by
  obtain ⟨recorded, done | ⟨e, failed, still | ⟨fault, left⟩⟩⟩ := attempt_cases ran
  · exact ⟨recorded, .inl done⟩
  · exact ⟨recorded, .inr ⟨e, failed, .inl still⟩⟩
  · rw [left]
    exact ⟨recorded, .inr ⟨e, failed, fault.spoil_cases r.tree p⟩⟩

/-- A move is done, or it fails and leaves the tree as it was. -/
theorem rename_cases
    (ran : FileOperations.rename (m := StateM Recording) p q r = (outcome, r')) :
    r'.past = r.points ∧
      ((outcome = .ok () ∧ r.tree.rename p q = .ok r'.tree) ∨
        ∃ e, outcome = .error e ∧ r'.tree = r.tree) := by
  obtain ⟨recorded, done | ⟨e, failed, still | ⟨fault, left⟩⟩⟩ := attempt_cases ran
  · exact ⟨recorded, .inl done⟩
  · exact ⟨recorded, .inr ⟨e, failed, still⟩⟩
  · exact ⟨recorded, .inr ⟨e, failed, left⟩⟩

/-- A removal is done, or it fails and leaves the tree as it was. -/
theorem remove_cases (ran : FileOperations.remove (m := StateM Recording) p r = (outcome, r')) :
    r'.past = r.points ∧ (r'.tree = r.tree ∨ r.tree.remove p = .ok r'.tree) := by
  obtain ⟨recorded, ⟨-, done⟩ | ⟨e, -, still | ⟨fault, left⟩⟩⟩ := attempt_cases ran
  · exact ⟨recorded, .inr done⟩
  · exact ⟨recorded, .inl still⟩
  · exact ⟨recorded, .inl left⟩

/-- What setting a target aside can come to: the old file is at the backup, there was none, or
nothing could be done. -/
theorem setAside_cases {outcome : Except FileError (Option Path)}
    (ran : Replacement.setAside (m := StateM Recording) p r = (outcome, r')) :
    (outcome = .ok (some (p.sibling "bak".toList)) ∧ r'.past = r.points ∧
        r.tree.rename p (p.sibling "bak".toList) = .ok r'.tree) ∨
      (outcome = .ok none ∧ r' = r ∧ ∀ content, r.tree.read p ≠ .ok content) ∨
      ∃ e, outcome = .error e ∧ r'.past = r.points ∧ r'.tree = r.tree := by
  rw [Replacement.setAside] at ran
  cases readable : r.tree.read p with
  | error e =>
    have tested : FileOperations.isFile (m := StateM Recording) p r = (false, r) :=
      congrArg (fun found => (found.isOk, r)) readable
    rw [run_bind tested] at ran
    cases ran
    exact .inr (.inl ⟨rfl, rfl, by rintro content ⟨⟩⟩)
  | ok content =>
    have tested : FileOperations.isFile (m := StateM Recording) p r = (true, r) :=
      congrArg (fun found => (found.isOk, r)) readable
    rcases moved : FileOperations.rename (m := StateM Recording) p (p.sibling "bak".toList) r with
      ⟨outcome₁, r₁⟩
    rw [run_bind tested, if_pos rfl, run_bind moved] at ran
    obtain ⟨recorded, ⟨rfl, done⟩ | ⟨e, rfl, still⟩⟩ := rename_cases moved
    · cases ran
      exact .inl ⟨rfl, recorded, done⟩
    · cases ran
      exact .inr (.inr ⟨e, rfl, recorded, still⟩)

end Recording

end FieldTables
