import FieldTables.Proofs.File.Standing

/-!
# Replacing all files or none

The files near each target are followed through a run of the replacement. Each step of one
replacement touches the places near its own target, so as long as no two targets have a place in
common, every replacement is at every point as far as its own steps have taken it. Undoing then
brings back every target, and without a failure every target has its new text.

The steps are those of any context that acts on a tree. An operation may fail there without a
cause in the tree; what is asked is that it is quiet after the first failure, when files are
brought back.
-/

namespace FieldTables

open FileTree Function

/-- A context whose operations act on a tree as those of a tree itself, or fail. A write that fails
may leave a part of the text behind. After a failure the context is calm: nothing fails any more
without a cause in the tree. -/
structure ActsOn {σ : Type} [FileOperations (StateM σ)] (tree : σ → FileTree)
    (calm : σ → Prop) : Prop where
  /-- A write that succeeds writes the text. -/
  write_ok : ∀ {p text s s'}, FileOperations.write (m := StateM σ) p text s = (.ok (), s') →
    (tree s).write p text.bytes = .ok (tree s')
  /-- A write that fails changes nothing or leaves some bytes. -/
  write_error : ∀ {p text s e s'}, FileOperations.write (m := StateM σ) p text s = (.error e, s') →
    calm s' ∧ (tree s' = tree s ∨ ∃ content, (tree s).write p content = .ok (tree s'))
  /-- A move that succeeds moves the file. -/
  rename_ok : ∀ {p q s s'}, FileOperations.rename (m := StateM σ) p q s = (.ok (), s') →
    (tree s).rename p q = .ok (tree s')
  /-- A move that fails changes nothing. -/
  rename_error : ∀ {p q s e s'}, FileOperations.rename (m := StateM σ) p q s = (.error e, s') →
    calm s' ∧ tree s' = tree s
  /-- In a calm context a move that is possible succeeds. -/
  rename_calm : ∀ {p q s t}, calm s → (tree s).rename p q = .ok t →
    ∃ s', FileOperations.rename (m := StateM σ) p q s = (.ok (), s') ∧ calm s'
  /-- A removal that is possible is done. -/
  remove_ok : ∀ {p s t}, (tree s).remove p = .ok t →
    tree (FileOperations.remove (m := StateM σ) p s).2 = t
  /-- A removal that is not possible changes nothing. -/
  remove_error : ∀ {p s e}, (tree s).remove p = .error e →
    tree (FileOperations.remove (m := StateM σ) p s).2 = tree s
  /-- A removal leaves a context calm. -/
  remove_calm : ∀ {p s}, calm s → calm (FileOperations.remove (m := StateM σ) p s).2
  /-- A test for a file tells what can be read and changes nothing. -/
  isFile : ∀ {p s}, (FileOperations.isFile (m := StateM σ) p s).1 = ((tree s).read p).isOk ∧
    tree (FileOperations.isFile (m := StateM σ) p s).2 = tree s

namespace ActsOn

variable {σ : Type} [FileOperations (StateM σ)] {tree : σ → FileTree} {calm : σ → Prop}
variable {t₀ : FileTree} {p : Path} {s s' : σ} {r : Replacement}

/-- After a removal no file is at the place, and no other place is touched. -/
theorem remove (acts : ActsOn tree calm) (same : t₀.SameDirectories (tree s)) (p : Path) :
    t₀.Within (t₀.Names p) (tree s) (tree (FileOperations.remove (m := StateM σ) p s).2) ∧
      ∀ l, t₀.Names p l →
        let left := (tree (FileOperations.remove (m := StateM σ) p s).2).get? l
        left = none ∨ left = some .directory := by
  cases done : (tree s).remove p with
  | ok t =>
    rw [acts.remove_ok done]
    obtain ⟨kept, l, names, changed⟩ := same.of_remove done
    refine ⟨.of_update kept changed names, fun k there => .inl ?_⟩
    rw [changed, there.unique names, update_self]
  | error e =>
    rw [acts.remove_error done]
    refine ⟨.refl same, fun l names => ?_⟩
    rcases found : (tree s).get? l with _ | content | _
    · exact .inl rfl
    · have possible := remove_eq_ok_iff.mpr ⟨l, content, same.names_iff.mpr names, found, rfl⟩
      rw [done] at possible
      cases possible
    · exact .inr rfl

/-- A removal of a file that is there leaves nothing at its place. -/
theorem remove_file (acts : ActsOn tree calm) (same : t₀.SameDirectories (tree s))
    {l : Location} {content : ByteArray} (names : t₀.Names p l)
    (there : (tree s).get? l = some (.file content)) :
    (tree (FileOperations.remove (m := StateM σ) p s).2).get? l = none := by
  have done := remove_eq_ok_iff.mpr ⟨l, content, same.names_iff.mpr names, there, rfl⟩
  rw [acts.remove_ok done, get?_erase_self _ names.ne_nil]

/-- In a calm context a file moves to a place where no directory is. -/
theorem rename_file (acts : ActsOn tree calm) (same : t₀.SameDirectories (tree s)) (quiet : calm s)
    {q : Path} {l k : Location} {content : ByteArray} (source : t₀.Names p l)
    (target : t₀.Names q k) (there : (tree s).get? l = some (.file content))
    (free : (tree s).get? k ≠ some .directory) :
    ∃ s', FileOperations.rename (m := StateM σ) p q s = (.ok (), s') ∧ calm s' ∧
      t₀.SameDirectories (tree s') ∧
        (tree s').get? = update (update (tree s).get? l none) k (some (.file content)) := by
  have possible := rename_eq_ok_iff.mpr
    ⟨l, k, content, same.names_iff.mpr source, same.names_iff.mpr target, there, free, rfl⟩
  obtain ⟨s', moved, quiet'⟩ := acts.rename_calm quiet possible
  have done := acts.rename_ok moved
  obtain ⟨kept, l', k', content', source', target', there', -, changed⟩ := same.of_rename done
  cases source.unique source'
  cases target.unique target'
  cases there.symm.trans there'
  exact ⟨s', moved, quiet', kept, changed⟩

/-- Undoing is a removal, and then a move where there is a backup. -/
theorem undo_eq (r : Replacement) (s : σ) :
    (r.undo (m := StateM σ) s).2 =
      let removed :=
        (FileOperations.remove (m := StateM σ) (if r.committed then r.target else r.temp) s).2
      match r.backup with
      | some backup => (FileOperations.rename (m := StateM σ) backup r.target removed).2
      | none => removed := by
  unfold Replacement.undo
  cases r.backup <;> rfl

/-- Moving a backup to a target that is free brings back the old file. -/
theorem bring_back (acts : ActsOn tree calm) (same : t₀.SameDirectories (tree s)) (quiet : calm s)
    {l k : Location} {old : ByteArray} (target : t₀.Names p l)
    (backup : t₀.Names (p.sibling "bak".toList) k) (before : t₀.get? l = some (.file old))
    (free : (tree s).get? l = none) (kept : (tree s).get? k = some (.file old))
    (temp : ∀ m, t₀.Names (p.sibling "tmp".toList) m →
      (tree s).get? m = t₀.get? m ∨ (tree s).get? m = none) :
    let after := (FileOperations.rename (m := StateM σ) (p.sibling "bak".toList) p s).2
    calm after ∧ t₀.Within (t₀.Near p) (tree s) (tree after) ∧ t₀.Restored p (tree after) := by
  obtain ⟨s', moved, quiet', same', changed⟩ :=
    acts.rename_file same quiet backup target kept (by rw [free]; exact nofun)
  rw [moved]
  refine ⟨quiet', .of_updates same' changed (.backup backup) (.inl target), fun m names => ?_, ?_⟩
  · rw [names.unique target, changed, update_self, before]
  · rintro m (names | names)
    · rw [changed, update_of_ne (target.ne_sibling names).symm,
        update_of_ne (names.sibling_ne (by decide) backup)]
      exact temp m names
    · rw [names.unique backup, changed, update_of_ne (target.ne_sibling backup).symm, update_self]
      exact .inr rfl

/-- After the hidden file is removed, its place is as it was or free. -/
theorem remove_temp (acts : ActsOn tree calm) (same : t₀.SameDirectories (tree s)) {m : Location}
    (names : t₀.Names p m) :
    let after := tree (FileOperations.remove (m := StateM σ) p s).2
    after.get? m = t₀.get? m ∨ after.get? m = none := by
  obtain ⟨within, emptied⟩ := acts.remove same p
  rcases emptied m names with gone | folder
  · exact .inr gone
  · exact .inl (folder.trans ((within.same.directory m).mp folder).symm)

/-- Undoing one replacement brings back its target, and no place of another one is touched. -/
theorem undo (acts : ActsOn tree calm) (same : t₀.SameDirectories (tree s)) (quiet : calm s)
    (standing : t₀.Standing r (tree s)) :
    let after := (r.undo (m := StateM σ) s).2
    calm after ∧ t₀.Within (t₀.Near r.target) (tree s) (tree after) ∧
      t₀.Restored r.target (tree after) := by
  rw [undo_eq]
  cases standing with
  | @begun p _ target backup =>
    have within := (acts.remove same (p.sibling "tmp".toList)).1
    refine ⟨acts.remove_calm quiet, within.mono fun l => .temp, fun l names => ?_, ?_⟩
    · rw [← target l names]
      exact within.elsewhere l fun temp => names.ne_sibling temp rfl
    · rintro l (temp | hidden)
      · exact acts.remove_temp same temp
      · left
        rw [← backup l hidden]
        exact within.elsewhere l fun temp => temp.sibling_ne (by decide) hidden rfl
  | @aside p _ l k old target backup before free kept =>
    have within := (acts.remove same (p.sibling "tmp".toList)).1
    have free' := (within.elsewhere l fun temp => target.ne_sibling temp rfl).trans free
    have kept' := (within.elsewhere k fun temp =>
      temp.sibling_ne (by decide) backup rfl).trans kept
    obtain ⟨quiet', back, restored⟩ := acts.bring_back within.same (acts.remove_calm quiet) target
      backup before free' kept' fun m names => acts.remove_temp same names
    exact ⟨quiet', (within.mono fun l => .temp).trans back, restored⟩
  | @fresh p _ l new target before there temp backup =>
    have within := (acts.remove same p).1
    have gone := acts.remove_file same target there
    refine ⟨acts.remove_calm quiet, within.mono fun l => .inl, fun m names => ?_, ?_⟩
    · rw [names.unique target, before]
      exact gone
    · rintro m (names | names)
      · exact .inr ((within.elsewhere m fun aimed => aimed.ne_sibling names rfl).trans
          (temp m names))
      · exact .inl ((within.elsewhere m fun aimed => aimed.ne_sibling names rfl).trans
          (backup m names))
  | @swapped p _ l k old new target backup before there temp kept =>
    have within := (acts.remove same p).1
    have gone := acts.remove_file same target there
    have kept' := (within.elsewhere k fun aimed => aimed.ne_sibling backup rfl).trans kept
    obtain ⟨quiet', back, restored⟩ := acts.bring_back within.same (acts.remove_calm quiet) target
      backup before gone kept' fun m names => .inr
        ((within.elsewhere m fun aimed => aimed.ne_sibling names rfl).trans (temp m names))
    exact ⟨quiet', (within.mono fun l => .inl).trans back, restored⟩

omit [FileOperations (StateM σ)] in
/-- Two steps run one after the other. -/
theorem run_bind {α β : Type} {x : StateM σ α} {a : α} (ran : x s = (a, s'))
    (f : α → StateM σ β) : (x >>= f) s = f a s' := by
  simp only [bind, StateT.bind, ran]

/-- What setting a target aside can come to: the old file is at the backup, there was none, or
nothing could be done. -/
theorem setAside (acts : ActsOn tree calm) {outcome : Except FileError (Option Path)}
    (ran : Replacement.setAside (m := StateM σ) p s = (outcome, s')) :
    (outcome = .ok (some (p.sibling "bak".toList)) ∧
        (tree s).rename p (p.sibling "bak".toList) = .ok (tree s')) ∨
      (outcome = .ok none ∧ tree s' = tree s ∧ ∀ content, (tree s).read p ≠ .ok content) ∨
      (∃ e, outcome = .error e) ∧ calm s' ∧ tree s' = tree s := by
  rw [Replacement.setAside] at ran
  obtain ⟨told, kept⟩ := acts.isFile (p := p) (s := s)
  rcases tested : FileOperations.isFile (m := StateM σ) p s with ⟨found, s₁⟩
  rw [run_bind tested] at ran
  rw [tested] at told kept
  change tree s₁ = tree s at kept
  cases found with
  | false =>
    cases ran
    refine .inr (.inl ⟨rfl, kept, fun content readable => ?_⟩)
    rw [readable] at told
    cases told
  | true =>
    rcases moved : FileOperations.rename (m := StateM σ) p (p.sibling "bak".toList) s₁ with
      ⟨_ | _, s₂⟩
    all_goals
      rw [if_pos rfl, run_bind moved] at ran
      cases ran
    · obtain ⟨quiet, still⟩ := acts.rename_error moved
      exact .inr (.inr ⟨⟨_, rfl⟩, quiet, still.trans kept⟩)
    · exact .inl ⟨rfl, kept ▸ acts.rename_ok moved⟩

/-- One commit touches the places near its target alone. It puts the new text there, or the old file
can still be brought back. -/
theorem commit (acts : ActsOn tree calm) (same : t₀.SameDirectories (tree s)) {text : Text}
    (staged : t₀.Staged p text (tree s)) {outcome : Option FileError}
    (ran : (Replacement.ofTarget p).commit (m := StateM σ) s = ((r, outcome), s')) :
    t₀.Within (t₀.Near p) (tree s) (tree s') ∧ r.target = p ∧
      (outcome = none → t₀.Committed (p, text) r (tree s')) ∧
        (outcome ≠ none → calm s' ∧ t₀.Standing r (tree s')) := by
  rw [Replacement.commit] at ran
  rcases put : Replacement.setAside (m := StateM σ) (Replacement.ofTarget p).target s with
    ⟨result, s₁⟩
  rw [run_bind put] at ran
  rcases moved : FileOperations.rename (m := StateM σ) (Replacement.ofTarget p).temp
    (Replacement.ofTarget p).target s₁ with ⟨_ | _, s₂⟩
  all_goals
    rcases acts.setAside put with ⟨rfl, done⟩ | ⟨rfl, still, unread⟩ | ⟨⟨e, rfl⟩, quiet, still⟩
  -- Nothing could be set aside: the new text waits beside its target.
  case error.inr.inr | ok.inr.inr =>
    cases ran
    rw [still]
    exact ⟨.refl same, rfl, nofun, fun _ => ⟨quiet, staged.standing⟩⟩
  all_goals
    dsimp only at ran
    rw [run_bind moved] at ran
    cases ran
  case error.inl =>
    obtain ⟨within, l, k, old, target, backup, before, free, kept, -⟩ :=
      staged.move_aside same done
    obtain ⟨quiet, still⟩ := acts.rename_error moved
    rw [still]
    exact ⟨within, rfl, nofun, fun _ => ⟨quiet, .aside target backup before free kept⟩⟩
  case error.inr.inl =>
    obtain ⟨quiet, still'⟩ := acts.rename_error moved
    rw [still', still]
    exact ⟨.refl same, rfl, nofun, fun _ => ⟨quiet, staged.standing⟩⟩
  case ok.inl =>
    obtain ⟨within, committed⟩ := staged.commit_aside same done (acts.rename_ok moved)
    exact ⟨within, rfl, fun _ => committed, fun failed => absurd rfl failed⟩
  case ok.inr.inl =>
    have done := acts.rename_ok moved
    rw [still] at done
    obtain ⟨within, committed⟩ := staged.commit_fresh same unread done
    exact ⟨within, rfl, fun _ => committed, fun failed => absurd rfl failed⟩

end ActsOn

end FieldTables
