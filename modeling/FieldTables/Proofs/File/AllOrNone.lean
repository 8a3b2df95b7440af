import FieldTables.Proofs.File.Batch

/-!
# All files or none

Replacing files promises that either every target gets its new text or every file stays as it is,
the hidden files beside the targets left out of account. The promise is kept for targets that are
apart, which can be computed from the places that their paths name. It is broken for two targets
that are one file: when the second replacement fails, the old file is gone.
-/

namespace FieldTables

namespace FileTree

variable {t : FileTree} {p q : Path} {l : Location}

/-- The location that a path names as the place of a file. -/
def location? (t : FileTree) (p : Path) : Option Location :=
  match t.place p with
  | .ok place =>
    if place.isDots = false ∧ place.slash = false ∧ place.name.width ≤ nameLimit then
      some place.location
    else none
  | .error _ => none

/-- The location of a path is the one that it names. -/
theorem location?_eq_some_iff : t.location? p = some l ↔ t.Names p l := by
  unfold location? Names
  cases t.place p with
  | error e => simp
  | ok place => simp [and_assoc]

/-- The locations that the replacement of a target can touch. -/
def places (t : FileTree) (p : Path) : List Location :=
  [p, p.sibling "tmp".toList, p.sibling "bak".toList].filterMap t.location?

/-- The places of a target are those near it. -/
theorem mem_places_iff : l ∈ t.places p ↔ t.Near p l := by
  simp [places, Near, Reserved, location?_eq_some_iff]

instance : Decidable (t.Names p l) :=
  decidable_of_iff (t.location? p = some l) location?_eq_some_iff

instance : Decidable (t.Reserved p l) := inferInstanceAs (Decidable (_ ∨ _))

instance : Decidable (t.Apart p q) :=
  decidable_of_iff (∀ l ∈ t.places p, l ∉ t.places q) (by simp only [mem_places_iff]; rfl)

instance (targets : List Path) : Decidable (t.AllApart targets) :=
  inferInstanceAs (Decidable (targets.Pairwise _))

/-- A change that succeeds is made, and one that fails is not. -/
theorem change_eq_iff {f : FileTree → Except FileError FileTree} {t t' : FileTree}
    {outcome : Except FileError Unit} :
    change f t = (outcome, t') ↔
      (outcome = .ok () ∧ f t = .ok t') ∨ ∃ e, outcome = .error e ∧ f t = .error e ∧ t' = t := by
  unfold change
  cases f t with
  | ok made =>
    constructor
    · rintro ⟨⟩
      exact .inl ⟨rfl, rfl⟩
    · rintro (⟨rfl, ⟨⟩⟩ | ⟨e, -, ⟨⟩, -⟩)
      rfl
  | error e =>
    constructor
    · rintro ⟨⟩
      exact .inr ⟨e, rfl, rfl, rfl⟩
    · rintro (⟨-, ⟨⟩⟩ | ⟨e, rfl, ⟨⟩, rfl⟩)
      rfl

/-- What a tree does as a context of operations is what it does as a tree. -/
theorem actsOn_id : ActsOn (id : FileTree → FileTree) fun _ => True where
  write_ok ran := by
    obtain ⟨-, done⟩ | ⟨e, given, -⟩ := change_eq_iff.mp ran
    · exact done
    · cases given
  write_error ran := by
    obtain ⟨given, -⟩ | ⟨e, -, -, still⟩ := change_eq_iff.mp ran
    · cases given
    · exact ⟨trivial, .inl still⟩
  rename_ok ran := by
    obtain ⟨-, done⟩ | ⟨e, given, -⟩ := change_eq_iff.mp ran
    · exact done
    · cases given
  rename_error ran := by
    obtain ⟨given, -⟩ | ⟨e, -, -, still⟩ := change_eq_iff.mp ran
    · cases given
    · exact ⟨trivial, still⟩
  rename_calm _ done := ⟨_, change_eq_iff.mpr (.inl ⟨rfl, done⟩), trivial⟩
  remove_ok done := congrArg Prod.snd (change_eq_iff.mpr (.inl ⟨rfl, done⟩))
  remove_error failed := congrArg Prod.snd (change_eq_iff.mpr (.inr ⟨_, rfl, failed, rfl⟩))
  remove_calm _ := trivial
  isFile := ⟨rfl, rfl⟩

/-- What replacing files promises of its outcome and the tree that it leaves. -/
structure AllOrNone (t : FileTree) (outputs : List (Path × Text))
    (ran : Except FileError Unit × FileTree) : Prop where
  /-- After a success every target reads back as its new text. -/
  replaced : ran.1 = .ok () → ∀ o ∈ outputs, ran.2.read o.1 = .ok o.2.bytes
  /-- After a failure every file but the hidden ones beside the targets is as it was. -/
  kept : ∀ e, ran.1 = .error e → ∀ l content, t.get? l = some (.file content) →
    (∀ o ∈ outputs, ¬t.Reserved o.1 l) → ran.2.get? l = some (.file content)
  /-- After a failure no file is new. -/
  old : ∀ e, ran.1 = .error e → ∀ l content, ran.2.get? l = some (.file content) →
    ∃ before, t.get? l = some (.file before)

end FileTree

open FileTree

/-- The promise is kept for targets that are apart. -/
theorem replaceFiles_allOrNone (t : FileTree) (outputs : List (Path × Text))
    (apart : t.AllApart (outputs.map Prod.fst)) :
    t.AllOrNone outputs (replaceFiles (m := StateM FileTree) outputs t) := by
  rcases ran : replaceFiles (m := StateM FileTree) outputs t with ⟨outcome, t'⟩
  obtain ⟨within, replaced, restored⟩ := actsOn_id.replaceFiles apart ran
  have still : ∀ e, outcome = .error e → ∀ l, (∀ o ∈ outputs, ¬t.Reserved o.1 l) →
      t'.get? l = t.get? l := by
    intro e failed l free
    by_cases near : t.NearSome (outputs.map Prod.fst) l
    · obtain ⟨_, listed, near⟩ := near
      obtain ⟨o, mem, rfl⟩ := List.mem_map.mp listed
      rcases near with names | hidden
      · exact (restored e failed o mem).target l names
      · exact absurd hidden (free o mem)
    · exact within.elsewhere l near
  constructor
  case replaced =>
    intro done o mem
    obtain ⟨l, names, there⟩ := (replaced done o mem).there
    exact read_eq_ok_iff.mpr ⟨l, within.same.names_iff.mpr names, there⟩
  case kept => exact fun e failed l content there free => (still e failed l free).trans there
  case old =>
    intro e failed l content there
    by_cases free : ∀ o ∈ outputs, ¬t.Reserved o.1 l
    · exact ⟨content, (still e failed l free).symm.trans there⟩
    · obtain ⟨o, mem, hidden⟩ : ∃ o ∈ outputs, t.Reserved o.1 l := by
        simpa only [not_forall, not_not, exists_prop] using free
      rcases (restored e failed o mem).cleared l hidden with same | gone
      · exact ⟨content, same.symm.trans there⟩
      · cases gone.symm.trans there

/-- A tree with a file and a directory. -/
def fileAndDirectory : FileTree where
  entries :=
    [(["enum.h".toList], .file (Text.bytes "OLD".toList)), (["enum.c".toList], .directory)]

/-- New texts for two targets. -/
def twoTargets : List (Path × Text) :=
  [(.ofText "enum.h".toList, "H".toList), (.ofText "enum.c".toList, "S".toList)]

/-- Where a directory at the second target makes its replacement fail, the promise is kept. -/
theorem replaceFiles_allOrNone_fileAndDirectory :
    fileAndDirectory.AllApart (twoTargets.map Prod.fst) ∧
      fileAndDirectory.AllOrNone twoTargets
        (replaceFiles (m := StateM FileTree) twoTargets fileAndDirectory) := by
  have apart : fileAndDirectory.AllApart (twoTargets.map Prod.fst) := by decide +kernel
  exact ⟨apart, replaceFiles_allOrNone fileAndDirectory twoTargets apart⟩

/-- A tree with one file. -/
def oneFile : FileTree where
  entries := [(["x".toList], .file (Text.bytes "OLD".toList))]

/-- New texts for one target, twice. -/
def sameTargets : List (Path × Text) :=
  [(.ofText "x".toList, "H1\n".toList), (.ofText "x".toList, "S1\n".toList)]

/-- Replacing one file twice fails, and the file is gone. -/
theorem not_allOrNone_sameTargets :
    ¬oneFile.AllOrNone sameTargets
      (replaceFiles (m := StateM FileTree) sameTargets oneFile) := by
  intro promise
  have free : ∀ o ∈ sameTargets, ¬oneFile.Reserved o.1 ["x".toList] := by decide +kernel
  have failed : (replaceFiles (m := StateM FileTree) sameTargets oneFile).1 = .error .notFound := by
    rfl
  have lost : (replaceFiles (m := StateM FileTree) sameTargets oneFile).2.get?
    ["x".toList] = none := by rfl
  have kept := promise.kept _ failed ["x".toList] _ rfl free
  cases lost.symm.trans kept

end FieldTables
