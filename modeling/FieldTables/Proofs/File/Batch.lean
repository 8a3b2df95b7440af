import FieldTables.Proofs.File.Replacement

/-!
# Replacing all files or none

Targets that are apart have no place in common, so what is done to one of them leaves the others as
they are. A run over a list of targets therefore brings each one as far as its own steps do: all
have their new texts when no step fails, and all are as they were when one does.

Targets that are not apart can destroy each other's files. When both targets are one file, the
second new text overwrites the first one's hidden file, and undoing removes what it takes for the
new text, though nothing but the backup is left by then.
-/

namespace FieldTables

open FileTree

/-- A place near one of several targets. -/
def FileTree.NearSome (t : FileTree) (targets : List Path) (l : Location) : Prop :=
  ∃ p ∈ targets, t.Near p l

theorem FileTree.NearSome.of_mem {t : FileTree} {targets : List Path} {p : Path} {l : Location}
    (mem : p ∈ targets) (near : t.Near p l) : t.NearSome targets l := ⟨p, mem, near⟩

theorem FileTree.NearSome.mono {t : FileTree} {targets more : List Path} {l : Location}
    (near : t.NearSome targets l) (wider : targets ⊆ more) : t.NearSome more l :=
  have ⟨p, mem, near⟩ := near
  ⟨p, wider mem, near⟩

/-- Targets of which no two have a place in common. -/
def FileTree.AllApart (t : FileTree) (targets : List Path) : Prop := targets.Pairwise t.Apart

/-- A target is apart from those before it and those after it. -/
theorem FileTree.AllApart.around {t : FileTree} {done rest : List (Path × Text)} {o : Path × Text}
    (apart : t.AllApart ((done ++ o :: rest).map Prod.fst)) :
    (∀ d ∈ done, t.Apart d.1 o.1) ∧ ∀ d ∈ rest, t.Apart d.1 o.1 := by
  obtain ⟨-, later, across⟩ := List.pairwise_append.mp (List.pairwise_map.mp apart)
  exact ⟨fun d mem => across d mem o List.mem_cons_self,
    fun d mem => ((List.pairwise_cons.mp later).1 d mem).symm⟩

namespace ActsOn

variable {σ : Type} [FileOperations (StateM σ)] {tree : σ → FileTree} {calm : σ → Prop}
variable {t₀ : FileTree} {s s' : σ}

omit [FileOperations (StateM σ)] in
/-- What is done to each of several targets apart is done to all of them. -/
private theorem forM_each {α : Type} {f : α → StateM σ Unit} (tree : σ → FileTree)
    (target : α → Path) (kept : σ → Prop) {P Q : α → FileTree → Prop}
    (looksP : ∀ a, t₀.Local (target a) (P a)) (looksQ : ∀ a, t₀.Local (target a) (Q a))
    (step : ∀ a s, t₀.SameDirectories (tree s) → kept s → P a (tree s) →
      kept (f a s).2 ∧ t₀.Within (t₀.Near (target a)) (tree s) (tree (f a s).2) ∧
        Q a (tree (f a s).2))
    {items : List α} (apart : t₀.AllApart (items.map target)) (s : σ)
    (same : t₀.SameDirectories (tree s)) (init : kept s) (before : ∀ a ∈ items, P a (tree s)) :
    kept (items.forM f s).2 ∧
      t₀.Within (t₀.NearSome (items.map target)) (tree s) (tree (items.forM f s).2) ∧
        ∀ a ∈ items, Q a (tree (items.forM f s).2) := by
  induction items generalizing s with
  | nil => exact ⟨init, .refl same, nofun⟩
  | cons a rest ih =>
    obtain ⟨distant, apart⟩ := List.pairwise_cons.mp apart
    obtain ⟨kept₁, within, after⟩ := step a s same init (before a List.mem_cons_self)
    have waiting : ∀ b ∈ rest, P b (tree (f a s).2) := fun b mem =>
      within.keeps (looksP b) (distant _ (List.mem_map_of_mem mem)).symm
        (before b (List.mem_cons_of_mem a mem))
    obtain ⟨kept₂, within', others⟩ := ih apart (f a s).2 within.same kept₁ waiting
    have result : ((a :: rest).forM f s).2 = (rest.forM f (f a s).2).2 := rfl
    rw [result]
    refine ⟨kept₂, ?_, fun b mem => ?_⟩
    · exact (within.mono fun l near => .of_mem List.mem_cons_self near).trans
        (within'.mono fun l near => near.mono (List.subset_cons_self _ _))
    · rcases List.mem_cons.mp mem with rfl | mem
      · exact within'.keeps (looksQ b)
          (fun l near ⟨p, mem, near'⟩ => distant p mem l near near') after
      · exact others b mem

/-- Undoing replacements of targets apart restores all of them. -/
theorem undoAll (acts : ActsOn tree calm) {rs : List Replacement} {targets : List Path}
    (aims : rs.map (·.target) = targets) (apart : t₀.AllApart targets)
    (same : t₀.SameDirectories (tree s)) (quiet : calm s)
    (standing : ∀ r ∈ rs, t₀.Standing r (tree s)) :
    let after := tree (Replacement.undoAll (m := StateM σ) rs s).2
    t₀.Within (t₀.NearSome targets) (tree s) after ∧ ∀ p ∈ targets, t₀.Restored p after := by
  subst aims
  have apart' : t₀.AllApart (rs.reverse.map (·.target)) := by
    rw [AllApart, List.map_reverse, List.pairwise_reverse]
    exact apart.imp Apart.symm
  obtain ⟨-, within, restored⟩ := forM_each tree (·.target) calm
    (f := Replacement.undo (m := StateM σ)) (P := t₀.Standing)
    (Q := fun r => t₀.Restored r.target) (fun _ => Standing.local) (fun _ => Restored.local)
    (fun r s same quiet standing => acts.undo same quiet standing) apart' s same quiet
    (fun r mem => standing r (List.mem_reverse.mp mem))
  refine ⟨within.mono fun l near => near.mono ?_, fun p mem => ?_⟩
  · simp
  · obtain ⟨r, held, rfl⟩ := List.mem_map.mp mem
    exact restored r (List.mem_reverse.mpr held)

/-- A failed write to the hidden file of an untouched target leaves the old file where it was. -/
private theorem write_failed (acts : ActsOn tree calm) (same : t₀.SameDirectories (tree s))
    {p : Path} {text : Text} {e : FileError} (untouched : t₀.Untouched p (tree s))
    (failed : FileOperations.write (m := StateM σ) (p.sibling "tmp".toList) text s =
      (.error e, s')) :
    calm s' ∧ t₀.Within (t₀.Near p) (tree s) (tree s') ∧
      t₀.Standing (.ofTarget p) (tree s') := by
  obtain ⟨quiet, left⟩ := acts.write_error failed
  obtain ⟨within, target, backup⟩ := untouched.spoiled same left
  exact ⟨quiet, within, .begun target backup⟩

private theorem targets_ofTarget (outputs : List (Path × Text)) :
    (outputs.map fun o => Replacement.ofTarget o.1).map (·.target) = outputs.map Prod.fst :=
  List.map_map ..

/-- The targets of replacements that are committed, under way and staged are those of the files. -/
theorem targets_underway {done : List ((Path × Text) × Replacement)} {o : Path × Text}
    {r : Replacement} (aims : ∀ d ∈ done, d.2.target = d.1.1) (aim : r.target = o.1)
    (rest : List (Path × Text)) :
    (done.map Prod.snd ++ r :: rest.map fun o => .ofTarget o.1).map (·.target) =
      (done.map Prod.fst ++ o :: rest).map Prod.fst := by
  have aims_done : (done.map Prod.snd).map (·.target) = (done.map Prod.fst).map Prod.fst := by
    rw [List.map_map, List.map_map]
    exact List.map_congr_left aims
  rw [List.map_append, List.map_append, aims_done, List.map_cons, List.map_cons, aim,
    targets_ofTarget]

/-- Undoing what is begun restores it, and what is not begun stays as it was. -/
private theorem give_up (acts : ActsOn tree calm) {begun waiting : List (Path × Text)}
    (apart : t₀.AllApart ((begun ++ waiting).map Prod.fst)) (same : t₀.SameDirectories (tree s))
    (quiet : calm s) (reach : ∀ o ∈ begun, t₀.Standing (.ofTarget o.1) (tree s))
    (untouched : ∀ o ∈ waiting, t₀.Untouched o.1 (tree s)) :
    let after := tree
      (Replacement.undoAll (m := StateM σ) (begun.map fun o => .ofTarget o.1) s).2
    t₀.Within (t₀.NearSome (begun.map Prod.fst)) (tree s) after ∧
      ∀ o ∈ begun ++ waiting, t₀.Restored o.1 after := by
  obtain ⟨apart, -, across⟩ := List.pairwise_append.mp (List.map_append ▸ apart)
  obtain ⟨within, restored⟩ := acts.undoAll (targets_ofTarget begun) apart same quiet
    (List.forall_mem_map.mpr reach)
  refine ⟨within, fun o mem => ?_⟩
  rcases List.mem_append.mp mem with mem | mem
  · exact restored o.1 (List.mem_map_of_mem mem)
  · have distant : ∀ l, t₀.Near o.1 l → ¬t₀.NearSome (begun.map Prod.fst) l :=
      fun l near ⟨p, held, near'⟩ => across p held o.1 (List.mem_map_of_mem mem) l near' near
    exact (within.keeps Untouched.local distant (untouched o mem)).restored

/-- After a write that fails, everything that was staged is restored. -/
private theorem stage_failed (acts : ActsOn tree calm) {done rest : List (Path × Text)} {p : Path}
    {text : Text} (apart : t₀.AllApart ((done ++ [(p, text)] ++ rest).map Prod.fst))
    (same : t₀.SameDirectories (tree s)) (staged : ∀ o ∈ done, t₀.Staged o.1 o.2 (tree s))
    (waiting : t₀.Untouched p (tree s)) (untouched : ∀ o ∈ rest, t₀.Untouched o.1 (tree s))
    {e : FileError} (failed : FileOperations.write (m := StateM σ) (p.sibling "tmp".toList) text s =
      (.error e, s')) :
    let after := tree (Replacement.undoAll (m := StateM σ)
      (done.map (fun o => .ofTarget o.1) ++ [.ofTarget p]) s').2
    t₀.Within (t₀.NearSome ((done ++ [(p, text)] ++ rest).map Prod.fst)) (tree s) after ∧
      ∀ o ∈ done ++ [(p, text)] ++ rest, t₀.Restored o.1 after := by
  obtain ⟨before, after⟩ := AllApart.around (List.append_cons done (p, text) rest ▸ apart)
  obtain ⟨quiet, within, standing⟩ := write_failed acts same waiting failed
  have reach : ∀ o ∈ done ++ [(p, text)], t₀.Standing (.ofTarget o.1) (tree s') :=
    List.forall_mem_append.mpr ⟨fun o mem =>
      within.keeps Standing.local (before o mem) (staged o mem).standing,
      List.forall_mem_singleton.mpr standing⟩
  obtain ⟨within', restored⟩ := give_up acts apart within.same quiet reach fun o mem =>
    within.keeps Untouched.local (after o mem) (untouched o mem)
  have staging : (done ++ [(p, text)]).map (fun o => Replacement.ofTarget o.1) =
      done.map (fun o => .ofTarget o.1) ++ [.ofTarget p] := List.map_append
  rw [staging] at within' restored
  refine ⟨(within.mono fun l near => ?_).trans (within'.mono fun l near => ?_), restored⟩
  · exact .of_mem (by simp) near
  · exact near.mono (by simp)

/-- Staging writes every new text beside its target, or undoes what it has written. -/
theorem stage (acts : ActsOn tree calm) {done todo : List (Path × Text)}
    (apart : t₀.AllApart ((done ++ todo).map Prod.fst)) (same : t₀.SameDirectories (tree s))
    (staged : ∀ o ∈ done, t₀.Staged o.1 o.2 (tree s))
    (untouched : ∀ o ∈ todo, t₀.Untouched o.1 (tree s))
    {outcome : Except FileError (List Replacement)}
    (ran : Replacement.stage (m := StateM σ) (done.map fun o => .ofTarget o.1) todo s =
      (outcome, s')) :
    t₀.Within (t₀.NearSome ((done ++ todo).map Prod.fst)) (tree s) (tree s') ∧
      (∀ rs, outcome = .ok rs → rs = (done ++ todo).map (fun o => .ofTarget o.1) ∧
        ∀ o ∈ done ++ todo, t₀.Staged o.1 o.2 (tree s')) ∧
      ∀ e, outcome = .error e → ∀ o ∈ done ++ todo, t₀.Restored o.1 (tree s') := by
  induction todo generalizing done s with
  | nil =>
    cases ran
    rw [List.append_nil]
    refine ⟨.refl same, fun rs given => ?_, nofun⟩
    cases given
    exact ⟨rfl, staged⟩
  | cons o rest ih =>
    obtain ⟨p, text⟩ := o
    obtain ⟨before, after⟩ := apart.around
    have whole : done ++ (p, text) :: rest = (done ++ [(p, text)]) ++ rest := by simp
    rw [whole] at apart ⊢
    obtain ⟨waiting, later⟩ := List.forall_mem_cons.mp untouched
    rw [Replacement.stage] at ran
    rcases wrote : FileOperations.write (m := StateM σ) (Replacement.ofTarget p).temp text s with
      ⟨e | _, s₁⟩
    all_goals rw [run_bind wrote] at ran
    · obtain ⟨within, restored⟩ := stage_failed acts apart same staged waiting later wrote
      cases ran
      exact ⟨within, nofun, fun _ _ => restored⟩
    · obtain ⟨same', m, temp, written⟩ := same.of_write (acts.write_ok wrote)
      have within : t₀.Within (t₀.Near p) (tree s) (tree s₁) :=
        .of_update same' written (.temp temp)
      have reach : ∀ o ∈ done ++ [(p, text)], t₀.Staged o.1 o.2 (tree s₁) :=
        List.forall_mem_append.mpr ⟨fun o mem =>
          within.keeps Staged.local (before o mem) (staged o mem),
          List.forall_mem_singleton.mpr (waiting.staged temp written)⟩
      obtain ⟨within', result⟩ := ih apart within.same reach
        (fun o mem => within.keeps Untouched.local (after o mem) (later o mem))
        (by simpa using ran)
      exact ⟨(within.mono fun l near => ⟨p, by simp, near⟩).trans within', result⟩

/-- After a commit that fails, everything that was committed or staged is restored. -/
private theorem commit_failed (acts : ActsOn tree calm)
    {done : List ((Path × Text) × Replacement)} {rest : List (Path × Text)} {p : Path} {text : Text}
    {r : Replacement}
    (apart : t₀.AllApart ((done.map Prod.fst ++ (p, text) :: rest).map Prod.fst))
    (same : t₀.SameDirectories (tree s)) (quiet : calm s)
    (committed : ∀ d ∈ done, t₀.Committed d.1 d.2 (tree s)) (target : r.target = p)
    (standing : t₀.Standing r (tree s)) (staged : ∀ o ∈ rest, t₀.Staged o.1 o.2 (tree s)) :
    let after := tree (Replacement.undoAll (m := StateM σ)
      (done.map Prod.snd ++ r :: rest.map fun o => .ofTarget o.1) s).2
    t₀.Within (t₀.NearSome ((done.map Prod.fst ++ (p, text) :: rest).map Prod.fst))
      (tree s) after ∧
        ∀ o ∈ done.map Prod.fst ++ (p, text) :: rest, t₀.Restored o.1 after := by
  have aims := targets_underway (o := (p, text)) (fun d mem => (committed d mem).target) target rest
  have all : ∀ x ∈ done.map Prod.snd ++ r :: rest.map (fun o => .ofTarget o.1),
      t₀.Standing x (tree s) := by
    refine List.forall_mem_append.mpr ⟨?_, List.forall_mem_cons.mpr ⟨standing, ?_⟩⟩
    · exact List.forall_mem_map.mpr fun d mem => (committed d mem).standing
    · exact List.forall_mem_map.mpr fun o mem => (staged o mem).standing
  obtain ⟨within, restored⟩ := acts.undoAll aims apart same quiet all
  exact ⟨within, fun o mem => restored o.1 (List.mem_map_of_mem mem)⟩

/-- Committing puts every new text at its target, or undoes what it and staging have done. -/
theorem commitAll (acts : ActsOn tree calm) {done : List ((Path × Text) × Replacement)}
    {todo : List (Path × Text)} (apart : t₀.AllApart ((done.map Prod.fst ++ todo).map Prod.fst))
    (same : t₀.SameDirectories (tree s))
    (committed : ∀ d ∈ done, t₀.Committed d.1 d.2 (tree s))
    (staged : ∀ o ∈ todo, t₀.Staged o.1 o.2 (tree s))
    {outcome : Except FileError (List Replacement)}
    (ran : Replacement.commitAll (m := StateM σ) (done.map Prod.snd)
      (todo.map fun o => .ofTarget o.1) s = (outcome, s')) :
    t₀.Within (t₀.NearSome ((done.map Prod.fst ++ todo).map Prod.fst)) (tree s) (tree s') ∧
      (∀ rs, outcome = .ok rs → ∃ all : List ((Path × Text) × Replacement),
        all.map Prod.fst = done.map Prod.fst ++ todo ∧ rs = all.map Prod.snd ∧
          ∀ d ∈ all, t₀.Committed d.1 d.2 (tree s')) ∧
      ∀ e, outcome = .error e → ∀ o ∈ done.map Prod.fst ++ todo, t₀.Restored o.1 (tree s') := by
  induction todo generalizing done s with
  | nil =>
    cases ran
    refine ⟨.refl same, fun rs given => ?_, nofun⟩
    cases given
    exact ⟨done, (List.append_nil _).symm, rfl, committed⟩
  | cons o rest ih =>
    obtain ⟨p, text⟩ := o
    obtain ⟨before, after⟩ := apart.around
    rw [List.map_cons, Replacement.commitAll] at ran
    rcases tried : (Replacement.ofTarget p).commit (m := StateM σ) s with ⟨⟨r, failure⟩, s₁⟩
    obtain ⟨within, target, success, reach⟩ :=
      acts.commit same (staged (p, text) List.mem_cons_self) tried
    have committed₁ : ∀ d ∈ done, t₀.Committed d.1 d.2 (tree s₁) := fun d mem =>
      within.keeps Committed.local (before d.1 (List.mem_map_of_mem mem)) (committed d mem)
    have staged₁ : ∀ o ∈ rest, t₀.Staged o.1 o.2 (tree s₁) := fun o mem =>
      within.keeps Staged.local (after o mem) (staged o (List.mem_cons_of_mem _ mem))
    have wider : t₀.Within (t₀.NearSome ((done.map Prod.fst ++ (p, text) :: rest).map Prod.fst))
        (tree s) (tree s₁) := within.mono fun l near => .of_mem (by simp) near
    rw [run_bind tried] at ran
    cases failure with
    | none =>
      have whole : done.map Prod.fst ++ (p, text) :: rest =
          (done ++ [((p, text), r)]).map Prod.fst ++ rest := by simp
      rw [whole] at apart wider ⊢
      have grown : ∀ d ∈ done ++ [((p, text), r)], t₀.Committed d.1 d.2 (tree s₁) :=
        List.forall_mem_append.mpr ⟨committed₁, List.forall_mem_singleton.mpr (success rfl)⟩
      obtain ⟨within', result⟩ := ih apart within.same grown staged₁ (by simpa using ran)
      exact ⟨wider.trans within', result⟩
    | some e =>
      obtain ⟨quiet, standing⟩ := reach (Option.some_ne_none e)
      obtain ⟨within', restored⟩ :=
        commit_failed acts apart within.same quiet committed₁ target standing staged₁
      cases ran
      exact ⟨wider.trans within', nofun, fun _ _ => restored⟩

/-- Remove the backup of a replacement, if there is one. -/
private def dropBackup (r : Replacement) : StateM σ Unit :=
  match r.backup with
  | some backup => discard <| FileOperations.remove backup
  | none => pure ()

/-- Removing all backups is removing the backup of each replacement. -/
private theorem forM_backup {α : Type} (replacement : α → Replacement) (items : List α) (s : σ) :
    ((items.map replacement).filterMap Replacement.backup).forM
        (fun backup => discard <| FileOperations.remove (m := StateM σ) backup) s =
      items.forM (fun a => dropBackup (replacement a)) s := by
  induction items generalizing s with
  | nil => rfl
  | cons a rest ih =>
    have first : (a :: rest).forM (fun a => dropBackup (replacement a)) s =
      rest.forM (fun a => dropBackup (replacement a)) (dropBackup (replacement a) s).2 := rfl
    rw [first, ← ih, List.map_cons, dropBackup]
    cases there : (replacement a).backup with
    | none =>
      rw [List.filterMap_cons_none there]
      rfl
    | some backup =>
      rw [List.filterMap_cons_some there]
      rfl

/-- Removing the backup of a committed replacement leaves the new text and no hidden file. -/
private theorem dropBackup_replaced (acts : ActsOn tree calm) (same : t₀.SameDirectories (tree s))
    {output : Path × Text} {r : Replacement} (committed : t₀.Committed output r (tree s)) :
    let after := tree (dropBackup r s).2
    t₀.Within (t₀.Near output.1) (tree s) after ∧ t₀.Replaced output after := by
  obtain ⟨target, done, standing, l, names, there⟩ := committed
  cases standing with
  | begun | aside => cases done
  | fresh _ _ _ temp backup =>
    cases target
    refine ⟨.refl same, ⟨l, names, there⟩, ?_⟩
    rintro m (hidden | hidden)
    · exact .inr (temp m hidden)
    · exact .inl (backup m hidden)
  | @swapped _ _ _ k old _ _ backup _ _ temp kept =>
    cases target
    have within := (acts.remove same (output.1.sibling "bak".toList)).1
    have gone := acts.remove_file same backup kept
    refine ⟨within.mono fun l => .backup, ⟨l, names, ?_⟩, ?_⟩
    · rw [← there]
      exact within.elsewhere l fun hidden => names.ne_sibling hidden rfl
    · rintro m (hidden | hidden)
      · exact .inr ((within.elsewhere m fun other =>
          hidden.sibling_ne (by decide) other rfl).trans (temp m hidden))
      · exact .inr (hidden.unique backup ▸ gone)

/-- Removing all backups leaves every new text and no hidden file. -/
private theorem dropBackups_replaced (acts : ActsOn tree calm)
    {all : List ((Path × Text) × Replacement)} (apart : t₀.AllApart (all.map fun d => d.1.1))
    (same : t₀.SameDirectories (tree s))
    (committed : ∀ d ∈ all, t₀.Committed d.1 d.2 (tree s)) :
    let after := tree (((all.map Prod.snd).filterMap Replacement.backup).forM
      (fun backup => discard <| FileOperations.remove (m := StateM σ) backup) s).2
    t₀.Within (t₀.NearSome (all.map fun d => d.1.1)) (tree s) after ∧
      ∀ d ∈ all, t₀.Replaced d.1 after := by
  rw [forM_backup]
  have step : ∀ (d : (Path × Text) × Replacement) (s : σ), t₀.SameDirectories (tree s) → True →
      t₀.Committed d.1 d.2 (tree s) →
        True ∧ t₀.Within (t₀.Near d.1.1) (tree s) (tree (dropBackup d.2 s).2) ∧
          t₀.Replaced d.1 (tree (dropBackup d.2 s).2) :=
    fun d s same _ committed => ⟨trivial, dropBackup_replaced acts same committed⟩
  exact (forM_each tree _ (fun _ => True)
    (P := fun (d : (Path × Text) × Replacement) => t₀.Committed d.1 d.2)
    (fun _ => Committed.local) (fun _ => Replaced.local) step apart s same trivial committed).2

/-- Replacing files of targets that are apart replaces all of them or restores all of them, and
touches no other place. -/
theorem replaceFiles (acts : ActsOn tree calm) {outputs : List (Path × Text)}
    (apart : (tree s).AllApart (outputs.map Prod.fst)) {outcome : Except FileError Unit}
    (ran : FieldTables.replaceFiles (m := StateM σ) outputs s = (outcome, s')) :
    (tree s).Within ((tree s).NearSome (outputs.map Prod.fst)) (tree s) (tree s') ∧
      (outcome = .ok () → ∀ o ∈ outputs, (tree s).Replaced o (tree s')) ∧
      ∀ e, outcome = .error e → ∀ o ∈ outputs, (tree s).Restored o.1 (tree s') := by
  rw [FieldTables.replaceFiles] at ran
  rcases staged : Replacement.stage (m := StateM σ) [] outputs s with ⟨⟨e⟩ | rs, s₁⟩ <;>
    rw [run_bind staged] at ran
  all_goals
    obtain ⟨within₁, success₁, failure₁⟩ := acts.stage apart (.refl _)
      (List.forall_mem_nil _) (fun o mem l near => rfl) staged
  · cases ran
    exact ⟨within₁, nofun, fun _ _ => failure₁ e rfl⟩
  · obtain ⟨rfl, waiting⟩ := success₁ rs rfl
    simp only [List.nil_append] at ran waiting
    rcases finished : Replacement.commitAll (m := StateM σ) []
      (outputs.map fun o => .ofTarget o.1) s₁ with ⟨⟨e⟩ | rs, s₂⟩ <;>
      rw [run_bind finished] at ran
    all_goals
      have apart' : (tree s).AllApart
        ((([] : List ((Path × Text) × Replacement)).map Prod.fst ++ outputs).map Prod.fst) := apart
      obtain ⟨within₂, success₂, failure₂⟩ := acts.commitAll apart' within₁.same
        (List.forall_mem_nil _) waiting finished
    · cases ran
      exact ⟨within₁.trans within₂, nofun, fun _ _ => failure₂ e rfl⟩
    · obtain ⟨all, listed, rfl, committed⟩ := success₂ rs rfl
      have aims : all.map (fun d => d.1.1) = outputs.map Prod.fst := by
        rw [← List.nil_append outputs, ← List.map_nil (f := Prod.fst), ← listed, List.map_map]
        rfl
      obtain ⟨within₃, replaced⟩ :=
        dropBackups_replaced acts (aims ▸ apart) within₂.same committed
      rw [aims] at within₃
      cases ran
      refine ⟨(within₁.trans within₂).trans within₃, fun _ o mem => ?_, nofun⟩
      rw [← List.nil_append outputs, ← List.map_nil (f := Prod.fst), ← listed] at mem
      obtain ⟨d, held, rfl⟩ := List.mem_map.mp mem
      exact replaced d held

end ActsOn

end FieldTables
