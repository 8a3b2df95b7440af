import FieldTables.File.Tree
import FieldTables.Proofs.Outcome
import Mathlib.Logic.Function.Basic

/-!
# What file operations do

A path names a place for a file when everything before its last part leads to directories. The
places that paths name depend on the directories of a tree alone, so they stay the same while files
come and go. Each operation succeeds exactly when its paths name places where it finds what it
needs, and it then changes the tree at these places only.
-/

namespace FieldTables.FileTree

open Outcome Function

variable {t t' : FileTree} {p q : Path} {l k : Location}

/-- A path names the place of a file: the directories before it are there, and its last part is a
name that a file can have. -/
def Names (t : FileTree) (p : Path) (l : Location) : Prop :=
  ∃ place, t.place p = .ok place ∧ place.isDots = false ∧ place.slash = false ∧
    place.name.width ≤ nameLimit ∧ place.location = l

/-- A path names one place at most. -/
theorem Names.unique (first : t.Names p l) (second : t.Names p k) : l = k := by
  obtain ⟨place, resolved, -, -, -, rfl⟩ := first
  obtain ⟨other, again, -, -, -, rfl⟩ := second
  cases resolved.symm.trans again
  rfl

/-- No path names the root as the place of a file. -/
theorem Names.ne_nil (names : t.Names p l) : l ≠ [] := by
  obtain ⟨place, -, -, -, -, rfl⟩ := names
  simp [Place.location]

/-- Putting an entry at a place is an update of what the tree has. -/
theorem get?_set (t : FileTree) (e : Entry) (h : l ≠ []) :
    (t.set l e).get? = update t.get? l (some e) := by
  funext k
  by_cases same : k = l
  · subst same
    rw [get?_set_self t e h, update_self]
  · rw [get?_set_of_ne t e same, update_of_ne same]

/-- Taking an entry away is an update of what the tree has. -/
theorem get?_erase (t : FileTree) (h : l ≠ []) :
    (t.erase l).get? = update t.get? l none := by
  funext k
  by_cases same : k = l
  · subst same
    rw [get?_erase_self t h, update_self]
  · rw [get?_erase_of_ne t same, update_of_ne same]

/-- What a name leads to is what the tree has there, if the name is not too long. -/
private theorem child_eq_ok_iff {directory : Location} {name : Text} {e : Entry} :
    t.child directory name = .ok e ↔
      name.width ≤ nameLimit ∧ t.get? (directory ++ [name]) = some e := by
  unfold child
  split
  next long => simp [Nat.not_le.mpr long]
  next short => cases t.get? (directory ++ [name]) <;> simp [Nat.not_lt.mp short]

/-- A name of usual length leads to what the tree has there. -/
private theorem child_eq_of_width_le {place : Place} (short : place.name.width ≤ nameLimit) :
    t.child place.directory place.name =
      match t.get? place.location with
      | some e => .ok e
      | none => .error .notFound := by
  rw [child, if_neg (Nat.not_lt.mpr short)]
  rfl

/-- A name that is too long leads to nothing. -/
private theorem child_eq_of_lt_width {place : Place} (long : nameLimit < place.name.width) :
    t.child place.directory place.name = .error .nameTooLong := if_pos long

/-- A place that can hold a file holds what the tree has there. -/
private theorem entry_eq_of_fit {place : Place} (dots : place.isDots = false)
    (slash : place.slash = false) (short : place.name.width ≤ nameLimit) :
    t.entry place =
      match t.get? place.location with
      | some e => .ok e
      | none => .error .notFound := by
  rw [entry, dots, slash, child_eq_of_width_le short]
  rcases t.get? place.location with _ | _ | _ <;> rfl

/-- A place holds a file exactly when it is one for files and the tree has a file there. -/
private theorem entry_eq_file_iff {place : Place} {content : ByteArray} :
    t.entry place = .ok (.file content) ↔
      place.isDots = false ∧ place.slash = false ∧ place.name.width ≤ nameLimit ∧
        t.get? place.location = some (.file content) := by
  unfold entry
  rcases Nat.lt_or_ge nameLimit place.name.width with long | short
  · rw [child_eq_of_lt_width long]
    cases place.isDots <;> simp [Nat.not_le.mpr long]
  · rw [child_eq_of_width_le short]
    cases place.isDots <;> cases place.slash <;> rcases t.get? place.location with _ | _ | _ <;>
      simp [short]

/-- Reading succeeds exactly where a file is named. -/
theorem read_eq_ok_iff {content : ByteArray} :
    t.read p = .ok content ↔ ∃ l, t.Names p l ∧ t.get? l = some (.file content) := by
  constructor
  · intro ok
    obtain ⟨place, resolved, ok⟩ := bind_eq_ok_iff.mp ok
    cases found : t.entry place with
    | error e => rw [found] at ok; cases ok
    | ok e =>
      rw [found] at ok
      cases e with
      | directory => cases ok
      | file content =>
        cases ok
        obtain ⟨dots, slash, short, there⟩ := entry_eq_file_iff.mp found
        exact ⟨_, ⟨place, resolved, dots, slash, short, rfl⟩, there⟩
  · rintro ⟨_, ⟨place, resolved, dots, slash, short, rfl⟩, there⟩
    refine bind_eq_ok_iff.mpr ⟨place, resolved, ?_⟩
    rw [entry_eq_file_iff.mpr ⟨dots, slash, short, there⟩]

/-- Removing succeeds exactly where a file is named, and takes it away. -/
theorem remove_eq_ok_iff :
    t.remove p = .ok t' ↔
      ∃ l content, t.Names p l ∧ t.get? l = some (.file content) ∧ t' = t.erase l := by
  constructor
  · intro ok
    obtain ⟨place, resolved, ok⟩ := bind_eq_ok_iff.mp ok
    cases found : t.entry place with
    | error e => rw [found] at ok; cases ok
    | ok e =>
      rw [found] at ok
      cases e with
      | directory => cases ok
      | file content =>
        cases ok
        obtain ⟨dots, slash, short, there⟩ := entry_eq_file_iff.mp found
        exact ⟨_, content, ⟨place, resolved, dots, slash, short, rfl⟩, there, rfl⟩
  · rintro ⟨_, content, ⟨place, resolved, dots, slash, short, rfl⟩, there, rfl⟩
    refine bind_eq_ok_iff.mpr ⟨place, resolved, ?_⟩
    rw [entry_eq_file_iff.mpr ⟨dots, slash, short, there⟩]

/-- Writing succeeds exactly where the place of a file is named that is no directory, and puts the
file there. -/
theorem write_eq_ok_iff {content : ByteArray} :
    t.write p content = .ok t' ↔
      ∃ l, t.Names p l ∧ t.get? l ≠ some .directory ∧ t' = t.set l (.file content) := by
  constructor
  · intro ok
    obtain ⟨place, resolved, ok⟩ := bind_eq_ok_iff.mp ok
    split at ok
    next => cases ok
    next fit =>
      rw [Bool.or_eq_true, not_or, Bool.not_eq_true, Bool.not_eq_true] at fit
      obtain ⟨dots, slash⟩ := fit
      rcases Nat.lt_or_ge nameLimit place.name.width with long | short
      · simp [entry, dots, child_eq_of_lt_width long] at ok
      · refine ⟨_, ⟨place, resolved, dots, slash, short, rfl⟩, ?_⟩
        rw [entry_eq_of_fit dots slash short] at ok
        rcases found : t.get? place.location with _ | _ | _ <;> rw [found] at ok <;> cases ok <;>
          simp
  · rintro ⟨_, ⟨place, resolved, dots, slash, short, rfl⟩, free, rfl⟩
    refine bind_eq_ok_iff.mpr ⟨place, resolved, ?_⟩
    rw [dots, slash, entry_eq_of_fit dots slash short]
    rcases found : t.get? place.location with _ | _ | _
    · rfl
    · rfl
    · exact absurd found free

/-- Moving succeeds exactly when a file is named that can stand at the other place named, and then
takes it there. -/
theorem rename_eq_ok_iff :
    t.rename p q = .ok t' ↔
      ∃ l k content, t.Names p l ∧ t.Names q k ∧ t.get? l = some (.file content) ∧
        t.get? k ≠ some .directory ∧ t' = (t.erase l).set k (.file content) := by
  constructor
  · intro ok
    obtain ⟨source, resolved, ok⟩ := bind_eq_ok_iff.mp ok
    obtain ⟨target, aimed, ok⟩ := bind_eq_ok_iff.mp ok
    split at ok
    next => cases ok
    next fit =>
      rw [Bool.or_eq_true, not_or, Bool.not_eq_true, Bool.not_eq_true] at fit
      obtain ⟨dots, dotsAimed⟩ := fit
      rcases Nat.lt_or_ge nameLimit source.name.width with long | short
      · simp [child_eq_of_lt_width long] at ok
      rw [child_eq_of_width_le short] at ok
      cases there : t.get? source.location with
      | none => rw [there] at ok; cases ok
      | some e =>
        rw [there] at ok
        cases e with
        | directory => cases ok
        | file content =>
          rcases Nat.lt_or_ge nameLimit target.name.width with long | shortAimed
          · rw [child_eq_of_lt_width long] at ok
            cases ok
          rw [child_eq_of_width_le shortAimed] at ok
          cases slash : source.slash || target.slash with
          | true =>
            rcases found : t.get? target.location with _ | _ | _ <;> rw [found, slash] at ok <;>
              cases ok
          | false =>
            have straight := Bool.or_eq_false_iff.mp slash
            refine ⟨_, _, content, ⟨source, resolved, dots, straight.1, short, rfl⟩,
              ⟨target, aimed, dotsAimed, straight.2, shortAimed, rfl⟩, there, ?_⟩
            rcases found : t.get? target.location with _ | _ | _ <;> rw [found, slash] at ok <;>
              cases ok <;> simp
  · rintro ⟨_, _, content, ⟨source, resolved, dots, slash, short, rfl⟩,
      ⟨target, aimed, dotsAimed, slashAimed, shortAimed, rfl⟩, there, free, rfl⟩
    refine bind_eq_ok_iff.mpr ⟨source, resolved, bind_eq_ok_iff.mpr ⟨target, aimed, ?_⟩⟩
    rw [dots, dotsAimed, slash, slashAimed, child_eq_of_width_le short,
      child_eq_of_width_le shortAimed, there]
    rcases found : t.get? target.location with _ | _ | _
    · rfl
    · rfl
    · exact absurd found free

/-- Two trees have the same directories and the same working directory. -/
structure SameDirectories (t t' : FileTree) : Prop where
  /-- Paths are resolved from the same directory. -/
  working : t'.working = t.working
  /-- What is a directory in one tree is one in the other. -/
  directory : ∀ l, t'.get? l = some .directory ↔ t.get? l = some .directory

namespace SameDirectories

/-- A tree has the same directories as itself. -/
theorem refl (t : FileTree) : t.SameDirectories t := ⟨rfl, fun _ => .rfl⟩

theorem symm (same : t.SameDirectories t') : t'.SameDirectories t :=
  ⟨same.working.symm, fun l => (same.directory l).symm⟩

theorem trans {t'' : FileTree} (first : t.SameDirectories t') (second : t'.SameDirectories t'') :
    t.SameDirectories t'' :=
  ⟨second.working.trans first.working, fun l => (second.directory l).trans (first.directory l)⟩

/-- A part of a path leads to the same directory in both trees. -/
private theorem step_eq_ok (same : t.SameDirectories t') {directory next : Location} {part : Text}
    (ok : t.step directory part = .ok next) : t'.step directory part = .ok next := by
  unfold step at ok ⊢
  split
  next idle => rwa [if_pos idle] at ok
  next busy =>
    rw [if_neg busy] at ok
    split
    next up => rwa [if_pos up] at ok
    next down =>
      rw [if_neg down] at ok
      cases found : t.child directory part with
      | error e => rw [found] at ok; cases ok
      | ok e =>
        cases e with
        | file content => rw [found] at ok; cases ok
        | directory =>
          rw [found] at ok
          obtain ⟨short, there⟩ := child_eq_ok_iff.mp found
          rw [child_eq_ok_iff.mpr ⟨short, (same.directory _).mpr there⟩]
          exact ok

private theorem foldlM_step_eq_ok (same : t.SameDirectories t') {parts : List Text}
    {start finish : Location} (ok : parts.foldlM t.step start = .ok finish) :
    parts.foldlM t'.step start = .ok finish := by
  induction parts generalizing start with
  | nil => exact ok
  | cons part rest ih =>
    rw [List.foldlM_cons] at ok ⊢
    obtain ⟨next, first, others⟩ := bind_eq_ok_iff.mp ok
    exact bind_eq_ok_iff.mpr ⟨next, same.step_eq_ok first, ih others⟩

private theorem place_eq_ok (same : t.SameDirectories t') {place : Place}
    (ok : t.place p = .ok place) : t'.place p = .ok place := by
  unfold FileTree.place at ok ⊢
  split
  next long => rw [if_pos long] at ok; cases ok
  next short =>
    rw [if_neg short] at ok
    rw [same.working]
    cases parts : p.parts.reverse.dropWhile List.isEmpty with
    | nil =>
      rw [parts] at ok
      exact ok
    | cons name before =>
      rw [parts] at ok
      obtain ⟨directory, walked, result⟩ := bind_eq_ok_iff.mp ok
      exact bind_eq_ok_iff.mpr ⟨directory, same.foldlM_step_eq_ok walked, result⟩

/-- Paths name the same places in both trees. -/
theorem names_iff (same : t.SameDirectories t') : t'.Names p l ↔ t.Names p l := by
  constructor
  · rintro ⟨place, resolved, fit⟩
    exact ⟨place, same.symm.place_eq_ok resolved, fit⟩
  · rintro ⟨place, resolved, fit⟩
    exact ⟨place, same.place_eq_ok resolved, fit⟩

/-- A file put where no directory is leaves the directories as they are. -/
theorem set (free : t.get? l ≠ some .directory) (named : l ≠ []) (content : ByteArray) :
    t.SameDirectories (t.set l (.file content)) := by
  refine ⟨rfl, fun k => ?_⟩
  rw [get?_set t _ named, update_apply]
  split
  next here => simp [here, free]
  next => rfl

/-- Taking away what is no directory leaves the directories as they are. -/
theorem erase (free : t.get? l ≠ some .directory) (named : l ≠ []) :
    t.SameDirectories (t.erase l) := by
  refine ⟨rfl, fun k => ?_⟩
  rw [get?_erase t named, update_apply]
  split
  next here => simp [here, free]
  next => rfl

variable {t₀ : FileTree} {content : ByteArray}

/-- What writing does, with places named as in an earlier tree. -/
theorem of_write (same : t₀.SameDirectories t) (ok : t.write p content = .ok t') :
    t₀.SameDirectories t' ∧
      ∃ l, t₀.Names p l ∧ t'.get? = update t.get? l (some (.file content)) := by
  obtain ⟨l, names, free, rfl⟩ := write_eq_ok_iff.mp ok
  exact ⟨same.trans (.set free names.ne_nil content), l, same.names_iff.mp names,
    get?_set t _ names.ne_nil⟩

/-- What moving does, with places named as in an earlier tree. -/
theorem of_rename (same : t₀.SameDirectories t) (ok : t.rename p q = .ok t') :
    t₀.SameDirectories t' ∧
      ∃ l k content, t₀.Names p l ∧ t₀.Names q k ∧ t.get? l = some (.file content) ∧
        t.get? k ≠ some .directory ∧
          t'.get? = update (update t.get? l none) k (some (.file content)) := by
  obtain ⟨l, k, content, source, target, there, free, rfl⟩ := rename_eq_ok_iff.mp ok
  have taken : t.SameDirectories (t.erase l) := .erase (by simp [there]) source.ne_nil
  have clear : (t.erase l).get? k ≠ some .directory := fun found =>
    free ((taken.directory k).mp found)
  refine ⟨same.trans (taken.trans (.set clear target.ne_nil content)), l, k, content,
    same.names_iff.mp source, same.names_iff.mp target, there, free, ?_⟩
  rw [get?_set _ _ target.ne_nil, get?_erase _ source.ne_nil]

/-- What removing does, with places named as in an earlier tree. -/
theorem of_remove (same : t₀.SameDirectories t) (ok : t.remove p = .ok t') :
    t₀.SameDirectories t' ∧ ∃ l, t₀.Names p l ∧ t'.get? = update t.get? l none := by
  obtain ⟨l, content, names, there, rfl⟩ := remove_eq_ok_iff.mp ok
  exact ⟨same.trans (.erase (by simp [there]) names.ne_nil), l, same.names_iff.mp names,
    get?_erase t names.ne_nil⟩

end SameDirectories

end FieldTables.FileTree
