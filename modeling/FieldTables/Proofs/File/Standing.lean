import FieldTables.File.Replacement
import FieldTables.Proofs.File.Sibling

/-!
# Where the files of a replacement stand

A replacement touches three places at most: its target and the two hidden files beside it. What it
has done so far shows in what stands at these places, and that alone decides whether the old file
can be brought back. Replacements whose places do not meet therefore do not disturb each other.
-/

namespace FieldTables.FileTree

open Function

variable {t₀ t t' t'' : FileTree} {p q : Path} {l : Location}

/-- A place of a hidden file beside a path. -/
def Reserved (t : FileTree) (p : Path) (l : Location) : Prop :=
  t.Names (p.sibling "tmp".toList) l ∨ t.Names (p.sibling "bak".toList) l

/-- A place that the replacement of a target can touch. -/
def Near (t : FileTree) (p : Path) (l : Location) : Prop := t.Names p l ∨ t.Reserved p l

/-- Two targets whose replacements touch no common place. -/
def Apart (t : FileTree) (p q : Path) : Prop := ∀ l, t.Near p l → ¬t.Near q l

theorem Apart.symm (apart : t.Apart p q) : t.Apart q p := fun l near other => apart l other near

theorem Near.temp (names : t.Names (p.sibling "tmp".toList) l) : t.Near p l := .inr (.inl names)

theorem Near.backup (names : t.Names (p.sibling "bak".toList) l) : t.Near p l := .inr (.inr names)

/-- A tree that keeps the directories of an earlier one, and what another tree has at all places
but the given ones. -/
structure Within (t₀ : FileTree) (touched : Location → Prop) (t t' : FileTree) : Prop where
  /-- The directories are those of the earlier tree. -/
  same : t₀.SameDirectories t'
  /-- The other places are as they were. -/
  elsewhere : ∀ l, ¬touched l → t'.get? l = t.get? l

namespace Within

variable {touched more : Location → Prop}

theorem refl (same : t₀.SameDirectories t) : t₀.Within touched t t := ⟨same, fun _ _ => rfl⟩

theorem trans (first : t₀.Within touched t t') (second : t₀.Within touched t' t'') :
    t₀.Within touched t t'' :=
  ⟨second.same, fun l out => (second.elsewhere l out).trans (first.elsewhere l out)⟩

theorem mono (within : t₀.Within touched t t') (wider : ∀ l, touched l → more l) :
    t₀.Within more t t' :=
  ⟨within.same, fun l out => within.elsewhere l (out ∘ wider l)⟩

/-- An update of one place touches that place. -/
theorem of_update {k : Location} {e : Option Entry} (same : t₀.SameDirectories t')
    (changed : t'.get? = update t.get? k e) (inside : touched k) : t₀.Within touched t t' := by
  refine ⟨same, fun l out => ?_⟩
  have other : l ≠ k := fun here => out (here ▸ inside)
  rw [changed, update_of_ne other]

/-- An update of two places touches these places. -/
theorem of_updates {k k' : Location} {e e' : Option Entry} (same : t₀.SameDirectories t')
    (changed : t'.get? = update (update t.get? k e) k' e') (inside : touched k)
    (inside' : touched k') : t₀.Within touched t t' := by
  refine ⟨same, fun l out => ?_⟩
  have other : l ≠ k := fun here => out (here ▸ inside)
  have other' : l ≠ k' := fun here => out (here ▸ inside')
  rw [changed, update_of_ne other', update_of_ne other]

end Within

/-- A property of trees that looks at the places near a target alone. -/
def Local (t₀ : FileTree) (p : Path) (P : FileTree → Prop) : Prop :=
  ∀ {t t' : FileTree}, (∀ l, t₀.Near p l → t'.get? l = t.get? l) → P t → P t'

/-- What looks at the places near a target stays as it is when these places are not touched. -/
theorem Within.keeps {touched : Location → Prop} {P : FileTree → Prop}
    (within : t₀.Within touched t t') (looks : t₀.Local p P)
    (apart : ∀ l, t₀.Near p l → ¬touched l) (holds : P t) : P t' :=
  looks (fun l near => within.elsewhere l (apart l near)) holds

/-- A target and its hidden files are as they were in an earlier tree. -/
def Untouched (t₀ : FileTree) (p : Path) (t : FileTree) : Prop :=
  ∀ l, t₀.Near p l → t.get? l = t₀.get? l

/-- The new text of a target is written beside it, and nothing else is done. -/
structure Staged (t₀ : FileTree) (p : Path) (text : Text) (t : FileTree) : Prop where
  /-- The target is as it was. -/
  target : ∀ l, t₀.Names p l → t.get? l = t₀.get? l
  /-- The place of the backup is as it was. -/
  backup : ∀ l, t₀.Names (p.sibling "bak".toList) l → t.get? l = t₀.get? l
  /-- The hidden file has the new text. -/
  temp : ∀ l, t₀.Names (p.sibling "tmp".toList) l → t.get? l = some (.file text.bytes)

/-- How far the replacement of a file has come, with the old file in reach at each stage. -/
inductive Standing (t₀ : FileTree) : Replacement → FileTree → Prop where
  /-- The target and the place of its backup are as they were. -/
  | begun {p : Path} {t : FileTree}
      (target : ∀ l, t₀.Names p l → t.get? l = t₀.get? l)
      (backup : ∀ l, t₀.Names (p.sibling "bak".toList) l → t.get? l = t₀.get? l) :
      Standing t₀ (.ofTarget p) t
  /-- The old file is at the backup and the target is free. -/
  | aside {p : Path} {t : FileTree} {l k : Location} {old : ByteArray}
      (target : t₀.Names p l) (backup : t₀.Names (p.sibling "bak".toList) k)
      (before : t₀.get? l = some (.file old)) (free : t.get? l = none)
      (kept : t.get? k = some (.file old)) :
      Standing t₀ { Replacement.ofTarget p with backup := some (p.sibling "bak".toList) } t
  /-- The new file is at the target, where there was none. -/
  | fresh {p : Path} {t : FileTree} {l : Location} {new : ByteArray} (target : t₀.Names p l)
      (before : t₀.get? l = none) (there : t.get? l = some (.file new))
      (temp : ∀ k, t₀.Names (p.sibling "tmp".toList) k → t.get? k = none)
      (backup : ∀ k, t₀.Names (p.sibling "bak".toList) k → t.get? k = t₀.get? k) :
      Standing t₀ { Replacement.ofTarget p with committed := true } t
  /-- The new file is at the target and the old one at the backup. -/
  | swapped {p : Path} {t : FileTree} {l k : Location} {old new : ByteArray}
      (target : t₀.Names p l) (backup : t₀.Names (p.sibling "bak".toList) k)
      (before : t₀.get? l = some (.file old)) (there : t.get? l = some (.file new))
      (temp : ∀ k, t₀.Names (p.sibling "tmp".toList) k → t.get? k = none)
      (kept : t.get? k = some (.file old)) :
      Standing t₀
        { Replacement.ofTarget p with
          backup := some (p.sibling "bak".toList)
          committed := true } t

/-- The new file stands at its target, and the old one is in reach. -/
structure Committed (t₀ : FileTree) (output : Path × Text) (r : Replacement) (t : FileTree) :
    Prop where
  /-- The replacement is that of the target. -/
  target : r.target = output.1
  /-- The last step of the replacement is done. -/
  committed : r.committed = true
  /-- The old file is in reach. -/
  standing : t₀.Standing r t
  /-- The target has the new text. -/
  there : ∃ l, t₀.Names output.1 l ∧ t.get? l = some (.file output.2.bytes)

/-- Hidden files are as they were or gone. -/
def Cleared (t₀ : FileTree) (p : Path) (t : FileTree) : Prop :=
  ∀ l, t₀.Reserved p l → t.get? l = t₀.get? l ∨ t.get? l = none

/-- A target is as it was, and no hidden file of its replacement is left. -/
structure Restored (t₀ : FileTree) (p : Path) (t : FileTree) : Prop where
  /-- The target is as it was. -/
  target : ∀ l, t₀.Names p l → t.get? l = t₀.get? l
  /-- Hidden files are as they were or gone. -/
  cleared : t₀.Cleared p t

/-- A target has its new text, and no hidden file of its replacement is left. -/
structure Replaced (t₀ : FileTree) (output : Path × Text) (t : FileTree) : Prop where
  /-- The target has the new text. -/
  there : ∃ l, t₀.Names output.1 l ∧ t.get? l = some (.file output.2.bytes)
  /-- Hidden files are as they were or gone. -/
  cleared : t₀.Cleared output.1 t

theorem Untouched.local : t₀.Local p (t₀.Untouched p) :=
  fun agree untouched l near => (agree l near).trans (untouched l near)

theorem Staged.local {text : Text} : t₀.Local p (t₀.Staged p text) :=
  fun agree staged =>
    ⟨fun l names => (agree l (.inl names)).trans (staged.target l names),
      fun l names => (agree l (.backup names)).trans (staged.backup l names),
      fun l names => (agree l (.temp names)).trans (staged.temp l names)⟩

theorem Standing.local {r : Replacement} : t₀.Local r.target (t₀.Standing r) := by
  intro t t' agree standing
  cases standing with
  | begun target backup =>
    exact .begun (fun l names => (agree l (.inl names)).trans (target l names))
      (fun l names => (agree l (.backup names)).trans (backup l names))
  | aside target backup before free kept =>
    exact .aside target backup before ((agree _ (.inl target)).trans free)
      ((agree _ (.backup backup)).trans kept)
  | fresh target before there temp backup =>
    exact .fresh target before ((agree _ (.inl target)).trans there)
      (fun k names => (agree k (.temp names)).trans (temp k names))
      (fun k names => (agree k (.backup names)).trans (backup k names))
  | swapped target backup before there temp kept =>
    exact .swapped target backup before ((agree _ (.inl target)).trans there)
      (fun k names => (agree k (.temp names)).trans (temp k names))
      ((agree _ (.backup backup)).trans kept)

theorem Cleared.local : t₀.Local p (t₀.Cleared p) := fun agree cleared l reserved => by
  rw [agree l (.inr reserved)]
  exact cleared l reserved

theorem Restored.local : t₀.Local p (t₀.Restored p) := fun agree restored =>
  ⟨fun l names => (agree l (.inl names)).trans (restored.target l names),
    restored.cleared.local agree⟩

variable {output : Path × Text} {r : Replacement}

theorem Committed.local : t₀.Local output.1 (t₀.Committed output r) := by
  rintro t t' agree ⟨target, committed, standing, l, names, there⟩
  refine ⟨target, committed, standing.local ?_, l, names, (agree l (.inl names)).trans there⟩
  rwa [target]

theorem Replaced.local : t₀.Local output.1 (t₀.Replaced output) := by
  rintro t t' agree ⟨⟨l, names, there⟩, cleared⟩
  exact ⟨⟨l, names, (agree l (.inl names)).trans there⟩, cleared.local agree⟩

/-- What is untouched needs no repair. -/
theorem Untouched.restored (untouched : t₀.Untouched p t) : t₀.Restored p t :=
  ⟨fun l names => untouched l (.inl names), fun l reserved => .inl (untouched l (.inr reserved))⟩

/-- A new text that is only written beside its target leaves the old file where it is. -/
theorem Staged.standing {text : Text} (staged : t₀.Staged p text t) :
    t₀.Standing (.ofTarget p) t := .begun staged.target staged.backup

/-- A text written to the hidden file of an untouched target is staged there. -/
theorem Untouched.staged {text : Text} (untouched : t₀.Untouched p t)
    (temp : t₀.Names (p.sibling "tmp".toList) l)
    (written : t'.get? = update t.get? l (some (.file text.bytes))) : t₀.Staged p text t' := by
  refine ⟨fun k names => ?_, fun k names => ?_, fun k names => ?_⟩
  · rw [written, update_of_ne (names.ne_sibling temp), untouched k (.inl names)]
  · rw [written, update_of_ne (names.sibling_ne (by decide) temp), untouched k (.backup names)]
  · rw [written, names.unique temp, update_self]

/-- Whatever a failing write leaves of the hidden file, the target and the place of its backup are
as they were. -/
theorem Untouched.spoiled (untouched : t₀.Untouched p t) (same : t₀.SameDirectories t)
    (left : t' = t ∨ ∃ content, t.write (p.sibling "tmp".toList) content = .ok t') :
    t₀.Within (t₀.Near p) t t' ∧ (∀ l, t₀.Names p l → t'.get? l = t₀.get? l) ∧
      ∀ l, t₀.Names (p.sibling "bak".toList) l → t'.get? l = t₀.get? l := by
  rcases left with rfl | ⟨content, done⟩
  · exact ⟨.refl same, fun k names => untouched k (.inl names),
      fun k names => untouched k (.backup names)⟩
  obtain ⟨same', m, temp, written⟩ := same.of_write done
  refine ⟨.of_update same' written (.temp temp), fun k names => ?_, fun k names => ?_⟩
  · rw [written, update_of_ne (names.ne_sibling temp), untouched k (.inl names)]
  · rw [written, update_of_ne (names.sibling_ne (by decide) temp), untouched k (.backup names)]

/-- Moving an old file to its backup frees its target and touches no new text. -/
theorem Staged.move_aside {text : Text} (staged : t₀.Staged p text t)
    (same : t₀.SameDirectories t)
    (done : t.rename p (p.sibling "bak".toList) = .ok t') :
    t₀.Within (t₀.Near p) t t' ∧
      ∃ l k old, t₀.Names p l ∧ t₀.Names (p.sibling "bak".toList) k ∧
        t₀.get? l = some (.file old) ∧ t'.get? l = none ∧
          t'.get? k = some (.file old) ∧
            ∀ m, t₀.Names (p.sibling "tmp".toList) m →
              t'.get? m = some (.file text.bytes) := by
  obtain ⟨same', l, k, old, target, backup, there, -, changed⟩ := same.of_rename done
  refine ⟨.of_updates same' changed (.inl target) (.backup backup), l, k, old, target, backup,
    (staged.target l target).symm.trans there, ?_, ?_, fun m names => ?_⟩
  · rw [changed, update_of_ne (target.ne_sibling backup), update_self]
  · rw [changed, update_self]
  · rw [changed, update_of_ne (names.sibling_ne (by decide) backup),
      update_of_ne (target.ne_sibling names).symm, staged.temp m names]

/-- Moving a new text to its target puts it there, leaves no hidden file with it and touches no
backup. -/
theorem move_in {text : Text} (same : t₀.SameDirectories t)
    (temp : ∀ m, t₀.Names (p.sibling "tmp".toList) m →
      t.get? m = some (.file text.bytes))
    (done : t.rename (p.sibling "tmp".toList) p = .ok t') :
    t₀.Within (t₀.Near p) t t' ∧
      ∃ l, t₀.Names p l ∧ t.get? l ≠ some .directory ∧
        t'.get? l = some (.file text.bytes) ∧
          (∀ m, t₀.Names (p.sibling "tmp".toList) m → t'.get? m = none) ∧
            ∀ k, t₀.Names (p.sibling "bak".toList) k → t'.get? k = t.get? k := by
  obtain ⟨same', m, l, content, source, target, there, free, changed⟩ := same.of_rename done
  cases there.symm.trans (temp m source)
  refine ⟨.of_updates same' changed (.temp source) (.inl target), l, target, free, ?_,
    fun k names => ?_, fun k names => ?_⟩
  · rw [changed, update_self]
  · rw [names.unique source, changed, update_of_ne (target.ne_sibling source).symm, update_self]
  · rw [changed, update_of_ne (target.ne_sibling names).symm,
      update_of_ne (names.sibling_ne (by decide) source)]

/-- A new text that moves to its target, with the old file at the backup, is committed. -/
theorem Staged.commit_aside {text : Text} {t₁ t₂ : FileTree} (staged : t₀.Staged p text t)
    (same : t₀.SameDirectories t) (aside : t.rename p (p.sibling "bak".toList) = .ok t₁)
    (done : t₁.rename (p.sibling "tmp".toList) p = .ok t₂) :
    t₀.Within (t₀.Near p) t t₂ ∧
      t₀.Committed (p, text) { Replacement.ofTarget p with
        backup := some (p.sibling "bak".toList), committed := true } t₂ := by
  obtain ⟨within, l, k, old, target, backup, before, free, kept, temp⟩ :=
    staged.move_aside same aside
  obtain ⟨within', l', target', -, new, gone, kept'⟩ := move_in within.same temp done
  cases target.unique target'
  have standing := Standing.swapped target backup before new gone ((kept' k backup).trans kept)
  exact ⟨within.trans within', rfl, rfl, standing, l, target, new⟩

/-- A new text that moves to a target where no file can be read is committed. -/
theorem Staged.commit_fresh {text : Text} (staged : t₀.Staged p text t)
    (same : t₀.SameDirectories t) (unread : ∀ content, t.read p ≠ .ok content)
    (done : t.rename (p.sibling "tmp".toList) p = .ok t') :
    t₀.Within (t₀.Near p) t t' ∧
      t₀.Committed (p, text) { Replacement.ofTarget p with committed := true } t' := by
  obtain ⟨within, l, target, open_, new, gone, kept⟩ := move_in same staged.temp done
  have before : t₀.get? l = none := by
    rw [← staged.target l target]
    rcases found : t.get? l with _ | content | _
    · rfl
    · exact absurd (read_eq_ok_iff.mpr ⟨l, same.names_iff.mpr target, found⟩) (unread content)
    · exact absurd found open_
  have standing := Standing.fresh target before new gone fun k names =>
    (kept k names).trans (staged.backup k names)
  exact ⟨within, rfl, rfl, standing, l, target, new⟩

end FieldTables.FileTree
