import FieldTables.Proofs.File.Reach
import FieldTables.Proofs.File.Recording
import Mathlib.Data.List.Pairwise

/-!
# Old files survive

Whichever operations of a replacement of files fail, and wherever it is cut off between two of them,
every old file is in reach or all new texts are in place; and nothing but an old file or a new text
is ever at a target. Each operation touches the places near one target alone, so it is enough to
look at that target after it.
-/

namespace FieldTables

open FileTree

/-- What holds of a tree at every point of a replacement of files. -/
structure FileTree.Survives (t₀ : FileTree) (outputs : List (Path × Text)) (t : FileTree) :
    Prop where
  /-- Every old file is at its target or at its backup, or every target has its new text. -/
  inReach : (∀ o ∈ outputs, t₀.InReach o.1 t) ∨ ∀ o ∈ outputs, t₀.New o t
  /-- Every target has nothing, what it had or its new text. -/
  oldOrNew : ∀ o ∈ outputs, t₀.OldOrNew o t

/-- A run so far: old files survive at every point behind it, and something holds of each target at
the last one. -/
structure Recording.Along (t₀ : FileTree) (outputs : List (Path × Text))
    (P : Path × Text → FileTree → Prop) (r : Recording) : Prop where
  /-- Old files survive before each operation. -/
  past : ∀ t ∈ r.past, t₀.Survives outputs t
  /-- The directories are those from which the run started. -/
  same : t₀.SameDirectories r.tree
  /-- What holds of each target now. -/
  each : ∀ o ∈ outputs, P o r.tree

/-- What holds of each target is enough for old files to survive, and looks at its places alone. -/
structure FileTree.Enough (t₀ : FileTree) (P : Path × Text → FileTree → Prop) : Prop where
  /-- Old files survive where it holds of all targets. -/
  survives : ∀ {outputs t}, (∀ o ∈ outputs, P o t) → t₀.Survives outputs t
  /-- It looks at the places of the target alone. -/
  looks : ∀ o, t₀.Local o.1 (P o)

namespace FileTree

variable {t₀ : FileTree}

/-- Targets that are safe have their old files in reach. -/
theorem enough_safe : t₀.Enough t₀.Safe where
  survives safe :=
    ⟨.inl fun o mem => (safe o mem).inReach, fun o mem => (safe o mem).oldOrNew⟩
  looks _ := Safe.local

/-- Where all new texts are in place, old files need not be in reach. -/
theorem enough_new : t₀.Enough t₀.New where
  survives new := ⟨.inr new, fun o mem => (new o mem).oldOrNew⟩
  looks _ := New.local

/-- Different ones of several targets apart are apart. -/
theorem AllApart.apart {outputs : List (Path × Text)} (apart : t₀.AllApart (outputs.map Prod.fst))
    {a b : Path × Text} (memA : a ∈ outputs) (memB : b ∈ outputs) (different : a ≠ b) :
    t₀.Apart a.1 b.1 := by
  have : Std.Symm fun a b : Path × Text => t₀.Apart a.1 b.1 := ⟨fun _ _ => Apart.symm⟩
  exact (List.pairwise_map.mp apart).forall memA memB different

end FileTree

namespace Recording

open ActsOn (run_bind undo_eq targets_underway)

variable {t₀ : FileTree} {outputs : List (Path × Text)} {P : Path × Text → FileTree → Prop}
variable {r r' : Recording} {o : Path × Text}

/-- Old files survive at every point of a run so far. -/
theorem Along.points (along : Along t₀ outputs P r) (enough : t₀.Enough P) :
    ∀ t ∈ r.points, t₀.Survives outputs t :=
  List.forall_mem_cons.mpr ⟨enough.survives along.each, along.past⟩

/-- One operation near a target keeps what holds of the others. -/
theorem Along.step (along : Along t₀ outputs P r) (enough : t₀.Enough P)
    (apart : t₀.AllApart (outputs.map Prod.fst)) (mem : o ∈ outputs)
    (recorded : r'.past = r.points) (within : t₀.Within (t₀.Near o.1) r.tree r'.tree)
    (there : P o r'.tree) : Along t₀ outputs P r' where
  past := recorded ▸ along.points enough
  same := within.same
  each x held := by
    by_cases here : x = o
    · rwa [here]
    · exact within.keeps (enough.looks x) (apart.apart held mem here) (along.each x held)

/-- An operation that changes nothing keeps what holds of each target. -/
theorem Along.still (along : Along t₀ outputs P r) (enough : t₀.Enough P)
    (recorded : r'.past = r.points) (still : r'.tree = r.tree) : Along t₀ outputs P r' where
  past := recorded ▸ along.points enough
  same := still ▸ along.same
  each := still ▸ along.each

/-- A run over several items goes along as each of them does, so long as each one touches the places
near its own target alone. -/
theorem Along.forM {α : Type} {f : α → StateM Recording Unit} (target : α → Path)
    {Q : α → FileTree → Prop} (looks : ∀ a, t₀.Local (target a) (Q a))
    (step : ∀ a r, Along t₀ outputs P r → Q a r.tree →
      Along t₀ outputs P (f a r).2 ∧ t₀.Within (t₀.Near (target a)) r.tree (f a r).2.tree)
    {items : List α} (apart : t₀.AllApart (items.map target)) (along : Along t₀ outputs P r)
    (before : ∀ a ∈ items, Q a r.tree) : Along t₀ outputs P (items.forM f r).2 := by
  induction items generalizing r with
  | nil => exact along
  | cons a rest ih =>
    obtain ⟨distant, apart⟩ := List.pairwise_cons.mp apart
    obtain ⟨first, before⟩ := List.forall_mem_cons.mp before
    obtain ⟨along', within⟩ := step a r along first
    have waiting : ∀ b ∈ rest, Q b (f a r).2.tree := fun b mem =>
      within.keeps (looks b) (distant _ (List.mem_map_of_mem mem)).symm (before b mem)
    exact ih apart along' waiting

/-- Undoing a replacement leaves its target safe after each operation. -/
theorem Along.undo {x : Replacement} (along : Along t₀ outputs t₀.Safe r)
    (apart : t₀.AllApart (outputs.map Prod.fst)) (mem : o ∈ outputs)
    (reach : t₀.Reach o x r.tree) :
    Along t₀ outputs t₀.Safe (x.undo (m := StateM Recording) r).2 ∧
      t₀.Within (t₀.Near o.1) r.tree (x.undo (m := StateM Recording) r).2.tree := by
  rw [undo_eq]
  rcases removed : FileOperations.remove (m := StateM Recording)
    (if x.committed then x.target else x.temp) r with ⟨outcome, r₁⟩
  obtain ⟨recorded, left⟩ := remove_cases removed
  obtain ⟨within, reach₁⟩ := reach.removed along.same left
  have along₁ := along.step enough_safe apart mem recorded within reach₁.safe
  cases aside : x.backup with
  | none => exact ⟨along₁, within⟩
  | some backup =>
    rcases moved : FileOperations.rename (m := StateM Recording) backup x.target r₁ with
      ⟨outcome', r₂⟩
    obtain ⟨recorded', left'⟩ := rename_cases moved
    have back : r₂.tree = r₁.tree ∨ r₁.tree.rename backup x.target = .ok r₂.tree :=
      left'.symm.imp (fun ⟨_, _, still⟩ => still) And.right
    obtain ⟨within', safe⟩ := reach₁.restored within.same aside back
    simp only [moved]
    exact ⟨along₁.step enough_safe apart mem recorded' within' safe, within.trans within'⟩

/-- Undoing replacements leaves every target safe after each operation. -/
theorem Along.undoAll {rs : List Replacement} (along : Along t₀ outputs t₀.Safe r)
    (apart : t₀.AllApart (outputs.map Prod.fst))
    (aims : (rs.map (·.target)).Sublist (outputs.map Prod.fst))
    (reach : ∀ x ∈ rs, ∃ o ∈ outputs, t₀.Reach o x r.tree) :
    Along t₀ outputs t₀.Safe (Replacement.undoAll (m := StateM Recording) rs r).2 := by
  have apart' : t₀.AllApart (rs.reverse.map (·.target)) := by
    rw [AllApart, List.map_reverse, List.pairwise_reverse]
    exact (apart.sublist aims).imp Apart.symm
  refine along.forM (·.target) (Q := fun x t => ∃ o ∈ outputs, t₀.Reach o x t) ?_ ?_ apart'
    fun x mem => reach x (List.mem_reverse.mp mem)
  · rintro x t t' agree ⟨o, mem, reach⟩
    rw [reach.target_eq] at agree
    exact ⟨o, mem, reach.local agree⟩
  · rintro x r along ⟨o, mem, reach⟩
    rw [reach.target_eq]
    exact along.undo apart mem reach

/-- Staging leaves every target safe after each operation, and writes every new text if it ends
well. -/
theorem Along.stage {done todo : List (Path × Text)} (along : Along t₀ outputs t₀.Safe r)
    (apart : t₀.AllApart (outputs.map Prod.fst)) (whole : done ++ todo = outputs)
    (staged : ∀ o ∈ done, t₀.Staged o.1 o.2 r.tree)
    (untouched : ∀ o ∈ todo, t₀.Untouched o.1 r.tree)
    {outcome : Except FileError (List Replacement)}
    (ran : Replacement.stage (m := StateM Recording) (done.map fun o => .ofTarget o.1) todo r =
      (outcome, r')) :
    Along t₀ outputs t₀.Safe r' ∧
      ∀ rs, outcome = .ok rs → rs = outputs.map (fun o => .ofTarget o.1) ∧
        ∀ o ∈ outputs, t₀.Staged o.1 o.2 r'.tree := by
  induction todo generalizing done r with
  | nil =>
    cases ran
    rw [List.append_nil] at whole
    subst whole
    refine ⟨along, fun rs given => ?_⟩
    cases given
    exact ⟨rfl, staged⟩
  | cons o rest ih =>
    obtain ⟨p, text⟩ := o
    subst whole
    have mem : (p, text) ∈ done ++ (p, text) :: rest := by simp
    obtain ⟨before, after⟩ := apart.around
    obtain ⟨waiting, later⟩ := List.forall_mem_cons.mp untouched
    rw [Replacement.stage] at ran
    rcases wrote : FileOperations.write (m := StateM Recording) (Replacement.ofTarget p).temp text r
      with ⟨outcome₁, r₁⟩
    rw [run_bind wrote] at ran
    obtain ⟨recorded, ⟨rfl, written⟩ | ⟨e, rfl, left⟩⟩ := write_cases wrote
    · obtain ⟨same, m, temp, changed⟩ := along.same.of_write written
      have within : t₀.Within (t₀.Near p) r.tree r₁.tree := .of_update same changed (.temp temp)
      have here := waiting.staged temp changed
      have along₁ := along.step enough_safe apart mem recorded within here.reach.safe
      have grown : ∀ o ∈ done ++ [(p, text)], t₀.Staged o.1 o.2 r₁.tree :=
        List.forall_mem_append.mpr ⟨fun o held =>
          within.keeps Staged.local (before o held) (staged o held),
          List.forall_mem_singleton.mpr here⟩
      exact ih along₁ (by simp) grown
        (fun o held => within.keeps Untouched.local (after o held) (later o held))
        (by simpa using ran)
    · obtain ⟨within, target, -⟩ := waiting.spoiled along.same left
      have reach : t₀.Reach (p, text) (.ofTarget p) r₁.tree := .waiting target
      have along₁ := along.step enough_safe apart mem recorded within reach.safe
      have begun : ∀ x ∈ done.map (fun o => .ofTarget o.1) ++ [.ofTarget p],
          ∃ o ∈ done ++ (p, text) :: rest, t₀.Reach o x r₁.tree :=
        List.forall_mem_append.mpr ⟨List.forall_mem_map.mpr fun o held =>
          ⟨o, List.mem_append_left _ held,
            within.keeps Reach.local (before o held) (staged o held).reach⟩,
          List.forall_mem_singleton.mpr ⟨_, mem, reach⟩⟩
      have undone := along₁.undoAll apart (by simp [Replacement.ofTarget, Function.comp_def]) begun
      cases ran
      exact ⟨undone, by rintro rs ⟨⟩⟩

/-- Committing leaves every target safe after each operation. The new text comes to its target, or
what was done can be undone. -/
theorem Along.commit {p : Path} {text : Text} {x : Replacement} {outcome : Option FileError}
    (along : Along t₀ outputs t₀.Safe r) (apart : t₀.AllApart (outputs.map Prod.fst))
    (mem : (p, text) ∈ outputs) (staged : t₀.Staged p text r.tree)
    (ran : (Replacement.ofTarget p).commit (m := StateM Recording) r = ((x, outcome), r')) :
    Along t₀ outputs t₀.Safe r' ∧ t₀.Within (t₀.Near p) r.tree r'.tree ∧
      (outcome = none → t₀.Committed (p, text) x r'.tree) ∧
        (outcome ≠ none → t₀.Reach (p, text) x r'.tree) := by
  rw [Replacement.commit] at ran
  rcases put : Replacement.setAside (m := StateM Recording) (Replacement.ofTarget p).target r with
    ⟨result, r₁⟩
  rw [run_bind put] at ran
  rcases moved : FileOperations.rename (m := StateM Recording) (Replacement.ofTarget p).temp
    (Replacement.ofTarget p).target r₁ with ⟨outcome₁, r₂⟩
  obtain ⟨recorded', moved'⟩ := rename_cases moved
  obtain ⟨rfl, recorded, aside⟩ | ⟨rfl, rfl, unread⟩ | ⟨e, rfl, recorded, still⟩ :=
    setAside_cases put
  -- The old file is at the backup, and the target is free until the new text comes.
  · obtain ⟨within, l, k, old, target, backup, before, free, kept, temp⟩ :=
      staged.move_aside along.same aside
    have reach : t₀.Reach (p, text) { Replacement.ofTarget p with
        backup := some (p.sibling "bak".toList) } r₁.tree :=
      .backed target backup before (.inl free) kept
    have along₁ := along.step enough_safe apart mem recorded within reach.safe
    dsimp only at ran
    rw [run_bind moved] at ran
    obtain ⟨rfl, done⟩ | ⟨e, rfl, still⟩ := moved'
    · have committed := (staged.commit_aside along.same aside done).2
      have within' := (move_in within.same temp done).1
      cases ran
      exact ⟨along₁.step enough_safe apart mem recorded' within' committed.reach.safe,
        within.trans within', fun _ => committed, fun failed => absurd rfl failed⟩
    · cases ran
      rw [still]
      exact ⟨along₁.still enough_safe recorded' still, within, by rintro ⟨⟩, fun _ => reach⟩
  -- There was no old file.
  · dsimp only at ran
    rw [run_bind moved] at ran
    obtain ⟨rfl, done⟩ | ⟨e, rfl, still⟩ := moved'
    · obtain ⟨within, committed⟩ := staged.commit_fresh along.same unread done
      cases ran
      exact ⟨along.step enough_safe apart mem recorded' within committed.reach.safe, within,
        fun _ => committed, fun failed => absurd rfl failed⟩
    · cases ran
      rw [still]
      exact ⟨along.still enough_safe recorded' still, .refl along.same, by rintro ⟨⟩,
        fun _ => staged.reach⟩
  -- Nothing could be set aside.
  · cases ran
    rw [still]
    exact ⟨along.still enough_safe recorded still, .refl along.same, by rintro ⟨⟩,
      fun _ => staged.reach⟩

/-- Committing leaves every target safe after each operation, and puts every new text at its target
if it ends well. -/
theorem Along.commitAll {done : List ((Path × Text) × Replacement)} {todo : List (Path × Text)}
    (along : Along t₀ outputs t₀.Safe r) (apart : t₀.AllApart (outputs.map Prod.fst))
    (whole : done.map Prod.fst ++ todo = outputs)
    (committed : ∀ d ∈ done, t₀.Committed d.1 d.2 r.tree)
    (staged : ∀ o ∈ todo, t₀.Staged o.1 o.2 r.tree)
    {outcome : Except FileError (List Replacement)}
    (ran : Replacement.commitAll (m := StateM Recording) (done.map Prod.snd)
      (todo.map fun o => .ofTarget o.1) r = (outcome, r')) :
    Along t₀ outputs t₀.Safe r' ∧
      ∀ rs, outcome = .ok rs → ∃ all : List ((Path × Text) × Replacement),
        all.map Prod.fst = outputs ∧ rs = all.map Prod.snd ∧
          ∀ d ∈ all, t₀.Committed d.1 d.2 r'.tree := by
  induction todo generalizing done r with
  | nil =>
    cases ran
    rw [List.append_nil] at whole
    refine ⟨along, fun rs given => ?_⟩
    cases given
    exact ⟨done, whole, rfl, committed⟩
  | cons o rest ih =>
    obtain ⟨p, text⟩ := o
    have mem : (p, text) ∈ outputs := by simp [← whole]
    obtain ⟨before, after⟩ := (whole ▸ apart).around
    obtain ⟨waiting, later⟩ := List.forall_mem_cons.mp staged
    rw [List.map_cons, Replacement.commitAll] at ran
    rcases tried : (Replacement.ofTarget p).commit (m := StateM Recording) r with ⟨⟨x, failure⟩, r₁⟩
    obtain ⟨along₁, within, success, reach⟩ := along.commit apart mem waiting tried
    have committed₁ : ∀ d ∈ done, t₀.Committed d.1 d.2 r₁.tree := fun d held =>
      within.keeps Committed.local (before d.1 (List.mem_map_of_mem held)) (committed d held)
    have staged₁ : ∀ o ∈ rest, t₀.Staged o.1 o.2 r₁.tree := fun o held =>
      within.keeps Staged.local (after o held) (later o held)
    rw [run_bind tried] at ran
    cases failure with
    | none =>
      have grown : ∀ d ∈ done ++ [((p, text), x)], t₀.Committed d.1 d.2 r₁.tree :=
        List.forall_mem_append.mpr ⟨committed₁, List.forall_mem_singleton.mpr (success rfl)⟩
      exact ih along₁ (by simp [← whole]) grown staged₁ (by simpa using ran)
    | some e =>
      have reach := reach (Option.some_ne_none e)
      have begun : ∀ y ∈ done.map Prod.snd ++ x :: rest.map (fun o => .ofTarget o.1),
          ∃ o ∈ outputs, t₀.Reach o y r₁.tree := by
        refine List.forall_mem_append.mpr ⟨?_, List.forall_mem_cons.mpr ⟨⟨_, mem, reach⟩, ?_⟩⟩
        · exact List.forall_mem_map.mpr fun d held =>
            ⟨d.1, by simp [← whole, List.mem_map_of_mem held], (committed₁ d held).reach⟩
        · exact List.forall_mem_map.mpr fun o held =>
            ⟨o, by simp [← whole, held], (staged₁ o held).reach⟩
      have aims := targets_underway (fun d held => (committed d held).target) reach.target_eq rest
      rw [whole] at aims
      have undone := along₁.undoAll apart (aims ▸ List.Sublist.refl _) begun
      cases ran
      exact ⟨undone, by rintro rs ⟨⟩⟩

/-- Removing backups leaves every new text at its target after each operation. -/
theorem Along.dropBackups {backups : List Path} (along : Along t₀ outputs t₀.New r)
    (apart : t₀.AllApart (outputs.map Prod.fst))
    (hidden : ∀ b ∈ backups, ∃ o ∈ outputs, b = o.1.sibling "bak".toList) :
    Along t₀ outputs t₀.New ((backups.forM fun backup =>
      discard <| FileOperations.remove (m := StateM Recording) backup) r).2 := by
  induction backups generalizing r with
  | nil => exact along
  | cons b rest ih =>
    obtain ⟨⟨o, mem, rfl⟩, others⟩ := List.forall_mem_cons.mp hidden
    have result : (((o.1.sibling "bak".toList :: rest).forM fun backup =>
        discard <| FileOperations.remove (m := StateM Recording) backup) r).2 =
      ((rest.forM fun backup => discard <| FileOperations.remove (m := StateM Recording) backup)
        (FileOperations.remove (m := StateM Recording) (o.1.sibling "bak".toList) r).2).2 := rfl
    rcases removed : FileOperations.remove (m := StateM Recording) (o.1.sibling "bak".toList) r with
      ⟨outcome, r₁⟩
    have along₁ : Along t₀ outputs t₀.New r₁ := by
      obtain ⟨recorded, still | done⟩ := remove_cases removed
      · exact along.still enough_new recorded still
      · obtain ⟨same, k, backup, changed⟩ := along.same.of_remove done
        obtain ⟨l, names, there⟩ := along.each o mem
        refine along.step enough_new apart mem recorded
          (.of_update same changed (.backup backup)) ⟨l, names, ?_⟩
        rw [changed, Function.update_of_ne (names.ne_sibling backup), there]
    rw [result, removed]
    exact ih along₁ others

/-- The backups of committed replacements are hidden files beside their targets. -/
theorem backups_hidden {all : List ((Path × Text) × Replacement)} {t : FileTree}
    (committed : ∀ d ∈ all, t₀.Committed d.1 d.2 t) :
    ∀ b ∈ (all.map Prod.snd).filterMap Replacement.backup,
      ∃ o ∈ all.map Prod.fst, b = o.1.sibling "bak".toList := by
  intro b kept
  obtain ⟨x, held, backup⟩ := List.mem_filterMap.mp kept
  obtain ⟨⟨o, x⟩, mem, rfl⟩ := List.mem_map.mp held
  refine ⟨o, List.mem_map_of_mem mem, ?_⟩
  obtain ⟨target, -, standing, -⟩ := committed (o, x) mem
  change x.target = o.1 at target
  rw [← target]
  cases standing <;> cases backup <;> rfl

end Recording

open Recording
open ActsOn (run_bind)

/-- Old files survive at every point of a replacement of files, whichever operations fail. -/
theorem replaceFiles_survives (t : FileTree) (outputs : List (Path × Text))
    (faults : List (Option Fault)) (apart : t.AllApart (outputs.map Prod.fst)) :
    ∀ t' ∈ (replaceFiles (m := StateM Recording) outputs { tree := t, faults := faults }).2.points,
      t.Survives outputs t' := by
  have start : Along t outputs t.Safe { tree := t, faults := faults } :=
    ⟨List.forall_mem_nil _, .refl t, fun o _ => .of_target fun _ _ => rfl⟩
  rcases ran : replaceFiles (m := StateM Recording) outputs { tree := t, faults := faults } with
    ⟨outcome, r⟩
  rw [replaceFiles] at ran
  rcases staged : Replacement.stage (m := StateM Recording) [] outputs
    { tree := t, faults := faults } with ⟨⟨e⟩ | rs, r₁⟩ <;> rw [run_bind staged] at ran
  all_goals
    obtain ⟨along₁, success₁⟩ := start.stage apart (List.nil_append _) (List.forall_mem_nil _)
      (fun o mem l near => rfl) staged
  · cases ran
    exact along₁.points enough_safe
  · obtain ⟨rfl, waiting⟩ := success₁ rs rfl
    dsimp only at ran
    rcases finished : Replacement.commitAll (m := StateM Recording) []
      (outputs.map fun o => .ofTarget o.1) r₁ with ⟨⟨e⟩ | rs, r₂⟩ <;>
      rw [run_bind finished] at ran
    all_goals
      obtain ⟨along₂, success₂⟩ := along₁.commitAll apart (List.nil_append _)
        (List.forall_mem_nil _) waiting finished
    · cases ran
      exact along₂.points enough_safe
    · obtain ⟨all, rfl, rfl, committed⟩ := success₂ rs rfl
      have new : Along t (all.map Prod.fst) t.New r₂ :=
        ⟨along₂.past, along₂.same, List.forall_mem_map.mpr fun d mem => (committed d mem).there⟩
      have along₃ := new.dropBackups apart (backups_hidden committed)
      cases ran
      exact along₃.points enough_new

/-- A tree in which two targets have files. -/
def bothTargets : FileTree where
  entries :=
    [(["enum.h".toList], .file (Text.bytes "OLD H".toList)),
      (["enum.c".toList], .file (Text.bytes "OLD S".toList))]

/-- A run in which the last move fails, and with it every operation that undoes what was done. -/
def undoneInVain : Recording where
  tree := bothTargets
  faults := List.replicate 5 none ++ List.replicate 5 (some { error := .busy })

/-- Where nothing can be undone, old files survive at each of the points between the operations. -/
theorem replaceFiles_survives_undoneInVain :
    bothTargets.AllApart (twoTargets.map Prod.fst) ∧
      (replaceFiles (m := StateM Recording) twoTargets undoneInVain).2.points.length = 11 ∧
        ∀ t ∈ (replaceFiles (m := StateM Recording) twoTargets undoneInVain).2.points,
          bothTargets.Survives twoTargets t := by
  have apart : bothTargets.AllApart (twoTargets.map Prod.fst) := by decide +kernel
  have stops :
      (replaceFiles (m := StateM Recording) twoTargets undoneInVain).2.points.length = 11 := by
    decide +kernel
  exact ⟨apart, stops, replaceFiles_survives bothTargets twoTargets undoneInVain.faults apart⟩

end FieldTables
