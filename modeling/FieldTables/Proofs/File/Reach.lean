import FieldTables.Proofs.File.Standing

/-!
# Old files in reach

A replacement may stop between any two steps, and the steps that undo it may fail like the others.
What can be said at each of these points is less than that the old file could be brought back by the
steps that remain: it is at the target or at the backup, and the target has the old file, the new
text or nothing. The steps that undo a replacement keep it so, whether they are done or fail.
-/

namespace FieldTables.FileTree

open Function

variable {t₀ t t' : FileTree} {p : Path} {text : Text} {o : Path × Text} {r : Replacement}

/-- The old file of a target, if there was one, is at the target or at its backup. -/
def InReach (t₀ : FileTree) (p : Path) (t : FileTree) : Prop :=
  ∀ l content, t₀.Names p l → t₀.get? l = some (.file content) →
    t.get? l = some (.file content) ∨
      ∃ k, t₀.Names (p.sibling "bak".toList) k ∧ t.get? k = some (.file content)

/-- A target has nothing, what it had or its new text. -/
def OldOrNew (t₀ : FileTree) (o : Path × Text) (t : FileTree) : Prop :=
  ∀ l, t₀.Names o.1 l →
    t.get? l = none ∨ t.get? l = t₀.get? l ∨ t.get? l = some (.file o.2.bytes)

/-- A target has its new text. -/
def New (t₀ : FileTree) (o : Path × Text) (t : FileTree) : Prop :=
  ∃ l, t₀.Names o.1 l ∧ t.get? l = some (.file o.2.bytes)

/-- No step of the replacement has lost the old file or put anything else at the target. -/
structure Safe (t₀ : FileTree) (o : Path × Text) (t : FileTree) : Prop where
  /-- The old file is in reach. -/
  inReach : t₀.InReach o.1 t
  /-- The target has nothing, what it had or its new text. -/
  oldOrNew : t₀.OldOrNew o t

theorem Safe.local : t₀.Local o.1 (t₀.Safe o) := by
  intro t t' agree safe
  refine ⟨fun l content names before => ?_, fun l names => ?_⟩
  · rcases safe.inReach l content names before with here | ⟨k, backup, kept⟩
    · exact .inl ((agree l (.inl names)).trans here)
    · exact .inr ⟨k, backup, (agree k (.backup backup)).trans kept⟩
  · rw [agree l (.inl names)]
    exact safe.oldOrNew l names

theorem New.local : t₀.Local o.1 (t₀.New o) := by
  rintro t t' agree ⟨l, names, there⟩
  exact ⟨l, names, (agree l (.inl names)).trans there⟩

/-- A target with its new text has nothing else. -/
theorem New.oldOrNew (new : t₀.New o t) : t₀.OldOrNew o t := by
  obtain ⟨l, names, there⟩ := new
  intro k names'
  rw [names'.unique names]
  exact .inr (.inr there)

/-- A target that is as it was is safe. -/
theorem Safe.of_target (target : ∀ l, t₀.Names o.1 l → t.get? l = t₀.get? l) : t₀.Safe o t where
  inReach l _ names before := .inl ((target l names).trans before)
  oldOrNew l names := .inr (.inl (target l names))

/-- How far the replacement of a file has come, with what it takes for the old file to stay in
reach while the replacement is undone. -/
inductive Reach (t₀ : FileTree) (o : Path × Text) : Replacement → FileTree → Prop where
  /-- The target is as it was. -/
  | waiting {t : FileTree} (target : ∀ l, t₀.Names o.1 l → t.get? l = t₀.get? l) :
      Reach t₀ o (.ofTarget o.1) t
  /-- The new text came to a target that had nothing. -/
  | fresh {t : FileTree} {l : Location} (target : t₀.Names o.1 l) (before : t₀.get? l = none)
      (free : t.get? l = none ∨ t.get? l = some (.file o.2.bytes)) :
      Reach t₀ o { Replacement.ofTarget o.1 with committed := true } t
  /-- The old file is at the backup. -/
  | backed {t : FileTree} {l k : Location} {old : ByteArray} {committed : Bool}
      (target : t₀.Names o.1 l) (backup : t₀.Names (o.1.sibling "bak".toList) k)
      (before : t₀.get? l = some (.file old))
      (free : t.get? l = none ∨ t.get? l = some (.file o.2.bytes))
      (kept : t.get? k = some (.file old)) :
      Reach t₀ o
        { Replacement.ofTarget o.1 with
          backup := some (o.1.sibling "bak".toList)
          committed := committed } t

theorem Reach.local : t₀.Local o.1 (t₀.Reach o r) := by
  intro t t' agree reach
  cases reach with
  | waiting target => exact .waiting fun l names => (agree l (.inl names)).trans (target l names)
  | fresh target before free =>
    rw [← agree _ (.inl target)] at free
    exact .fresh target before free
  | backed target backup before free kept =>
    rw [← agree _ (.inl target)] at free
    exact .backed target backup before free ((agree _ (.backup backup)).trans kept)

namespace Reach

/-- The replacement is that of the target. -/
theorem target_eq (reach : t₀.Reach o r t) : r.target = o.1 := by cases reach <;> rfl

/-- A target whose replacement can be undone is safe. -/
theorem safe (reach : t₀.Reach o r t) : t₀.Safe o t := by
  cases reach with
  | waiting target => exact .of_target target
  | fresh target before free =>
    refine ⟨fun k content names there => ?_, fun k names => ?_⟩
    · cases names.unique target
      cases before.symm.trans there
    · cases names.unique target
      exact free.imp_right .inr
  | backed target backup before free kept =>
    refine ⟨fun m content names there => ?_, fun m names => ?_⟩
    · cases names.unique target
      cases before.symm.trans there
      exact .inr ⟨_, backup, kept⟩
    · cases names.unique target
      exact free.imp_right .inr

/-- Whether the new file is removed when a replacement is undone or not, the old file stays in
reach. -/
theorem removed (reach : t₀.Reach o r t) (same : t₀.SameDirectories t)
    (left : t' = t ∨ t.remove (if r.committed then r.target else r.temp) = .ok t') :
    t₀.Within (t₀.Near o.1) t t' ∧ t₀.Reach o r t' := by
  rcases left with rfl | done
  · exact ⟨.refl same, reach⟩
  obtain ⟨same', m, names, changed⟩ := same.of_remove done
  cases reach with
  | waiting target =>
    refine ⟨.of_update same' changed (.temp names), .waiting fun l there => ?_⟩
    rw [changed, update_of_ne (there.ne_sibling names), target l there]
  | fresh target before free =>
    refine ⟨.of_update same' changed (.inl names), .fresh target before (.inl ?_)⟩
    rw [target.unique names, changed, update_self]
  | @backed _ l k old committed target backup before free kept =>
    cases committed with
    | false =>
      refine ⟨.of_update same' changed (.temp names), .backed target backup before ?_ ?_⟩
      · rwa [changed, update_of_ne (target.ne_sibling names)]
      · rw [changed, update_of_ne (names.sibling_ne (by decide) backup).symm, kept]
    | true =>
      refine ⟨.of_update same' changed (.inl names), .backed target backup before (.inl ?_) ?_⟩
      · rw [target.unique names, changed, update_self]
      · rw [changed, update_of_ne (Names.ne_sibling names backup).symm, kept]

/-- Whether the old file is brought back from its backup or not, it stays in reach. -/
theorem restored {backup : Path} (reach : t₀.Reach o r t) (same : t₀.SameDirectories t)
    (aside : r.backup = some backup) (left : t' = t ∨ t.rename backup r.target = .ok t') :
    t₀.Within (t₀.Near o.1) t t' ∧ t₀.Safe o t' := by
  rcases left with rfl | done
  · exact ⟨.refl same, reach.safe⟩
  cases reach with
  | waiting | fresh => cases aside
  | @backed _ l k old committed target hidden before free kept =>
    cases aside
    obtain ⟨same', m, n, content, source, aimed, there, -, changed⟩ := same.of_rename done
    cases source.unique hidden
    cases there.symm.trans kept
    cases aimed.unique target
    refine ⟨.of_updates same' changed (.backup hidden) (.inl aimed), .of_target fun l' names => ?_⟩
    rw [names.unique aimed, changed, update_self, before]

end Reach

/-- A new text that is only written beside its target leaves the old file at the target. -/
theorem Staged.reach (staged : t₀.Staged p text t) : t₀.Reach (p, text) (.ofTarget p) t :=
  .waiting staged.target

/-- A replacement that is committed can be undone. -/
theorem Committed.reach (committed : t₀.Committed o r t) : t₀.Reach o r t := by
  obtain ⟨target, done, standing, l, names, there⟩ := committed
  cases standing with
  | begun | aside => cases done
  | fresh aimed before =>
    cases target
    cases names.unique aimed
    exact .fresh names before (.inr there)
  | swapped aimed backup before _ _ kept =>
    cases target
    cases names.unique aimed
    exact .backed names backup before (.inr there) kept

end FieldTables.FileTree
