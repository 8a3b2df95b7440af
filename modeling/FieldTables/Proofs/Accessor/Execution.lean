import FieldTables.Proofs.Artifact.Identifier

/-!
# Execution of accessors

What is read from both files can be run. All ordinary identifiers share one scope, in which an
enumerator stands for its position. A call compares an integer with the labels of the switch and
goes on behind the one that stands for it, instruction by instruction, until the switch is left or
the function returns. The instance and the two outputs are objects of their own, and stand in no
scope.
-/

namespace FieldTables

/-- What an identifier stands for. -/
inductive Meaning where
  /-- An enumerator, with its value. -/
  | constant (value : Nat)
  /-- A size table. -/
  | table (t : SizeTable)
  /-- An accessor. -/
  | function (a : Definition)

/-- The identifiers in scope, each with its meaning; the first one of a name counts. -/
abbrev Scope := List (Text × Meaning)

namespace Scope

/-- The integer that a name stands for. -/
def value? (scope : Scope) (name : Text) : Option Int :=
  match scope.lookup name with
  | some (.constant value) => some value
  | _ => none

/-- The table that a name stands for. -/
def table? (scope : Scope) (name : Text) : Option SizeTable :=
  match scope.lookup name with
  | some (.table t) => some t
  | _ => none

/-- The entry of a size table at the value of a constant less a number, if it is in the table. -/
def entry? (scope : Scope) (sizes index : Text) (less : Nat) : Option (SizeTable × Nat) := do
  let table ← scope.table? sizes
  let place := (← scope.value? index) - less
  if 0 ≤ place ∧ place < table.operands.length then return (table, place.toNat) else none

/-- A name that is defined once stands for what it is defined as. -/
theorem lookup_eq_some_of_mem {scope : Scope} (distinct : (scope.map Prod.fst).Nodup) {name : Text}
    {meaning : Meaning} (defined : (name, meaning) ∈ scope) :
    scope.lookup name = some meaning := by
  induction scope with
  | nil => cases defined
  | cons first rest ih =>
    obtain ⟨other, otherMeaning⟩ := first
    rw [List.map_cons, List.nodup_cons] at distinct
    rw [List.lookup_cons]
    rcases List.mem_cons.mp defined with here | below
    · cases here
      rw [beq_self_eq_true]
    · have different : (name == other) = false := by
        rw [beq_eq_false_iff_ne]
        rintro rfl
        exact distinct.1 (List.mem_map.mpr ⟨_, below, rfl⟩)
      rw [different]
      exact ih distinct.2 below

end Scope

/-- The enumerators with their values. -/
def Enumeration.constants (e : Enumeration) : Scope :=
  e.enumerators.zipIdx.map fun (name, position) => (name, .constant position)

/-- The name of an accessor, which its signature names first. -/
def Definition.names (a : Definition) : Scope :=
  (a.signature.declarators.take 1).map fun name => (name, .function a)

/-- The ordinary identifiers that both files define. -/
def Listing.scope (listing : Listing) : Scope :=
  listing.enumerations.flatMap Enumeration.constants
    ++ listing.tables.map (fun t => (t.name, .table t))
    ++ listing.definitions.flatMap Definition.names

theorem Enumeration.map_fst_constants (e : Enumeration) :
    e.constants.map Prod.fst = e.enumerators := by
  rw [constants, List.map_map]
  exact List.zipIdx_map_fst 0 e.enumerators

theorem Structure.Spelled.map_fst_names {s : Structure} (spelled : s.Spelled)
    (settings : Settings) :
    (s.definition settings).names.map Prod.fst = [(s.accessor settings).name] := by
  have named : (s.definition settings).signature.declarators =
      (s.accessor settings).name :: s.parameters settings := spelled.declarators
  rw [Definition.names, named]
  rfl

/-- What is stored through the two outputs of a call. -/
structure Outputs where
  /-- The instance, and the members to follow from it to the one whose address is stored. -/
  address : Option (Text × List Text) := none
  /-- The table, and the place in it of the size that is stored. -/
  size : Option (SizeTable × Nat) := none
  deriving DecidableEq

/-- What a call stores and returns. -/
structure Effect where
  /-- What is stored. -/
  outputs : Outputs
  /-- What is returned. -/
  status : Status
  deriving DecidableEq

namespace Instruction

/-- Run instructions one after the other; labels are passed over. The result is what is stored then
and the status that is returned. There is no status when control goes on behind the switch, and no
result when an entry is read that is not in its table. -/
def run (scope : Scope) : List Instruction → Outputs → Option (Outputs × Option Status)
  | [], out => some (out, none)
  | .caseLabel _ :: rest, out => run scope rest out
  | .defaultLabel :: rest, out => run scope rest out
  | .storeAddress inst path :: rest, out =>
    run scope rest { out with address := some (inst, path) }
  | .storeSize sizes index less :: rest, out => do
    let entry ← scope.entry? sizes index less
    run scope rest { out with size := some entry }
  | .leave :: _, out => some (out, none)
  | .finish status :: _, out => some (out, some status)

/-- What stands behind each instruction that is sought. -/
def behind (sought : Instruction → Bool) : List Instruction → List (List Instruction)
  | [] => []
  | first :: rest => if sought first then rest :: behind sought rest else behind sought rest

/-- Whether an instruction is a case label that stands for an integer. -/
def isCaseOf (scope : Scope) (ev : Int) : Instruction → Bool
  | .caseLabel label => scope.value? label = some ev
  | _ => false

/-- Whether an instruction is the default label. -/
def isDefault (i : Instruction) : Bool := i = .defaultLabel

/-- Whether an instruction is no case label without a value. -/
def isConstant (scope : Scope) : Instruction → Bool
  | .caseLabel label => (scope.value? label).isSome
  | _ => true

end Instruction

namespace Definition

open Instruction

/-- What stands behind each case label for an integer. -/
def matching (scope : Scope) (a : Definition) (ev : Int) : List (List Instruction) :=
  behind (isCaseOf scope ev) a.selection

/-- Where a switch goes on with an integer: behind the case label that stands for it, else behind
the default label, else behind the switch. It is undefined when there are two such labels. -/
def start? (scope : Scope) (a : Definition) (ev : Int) : Option (List Instruction) :=
  match a.matching scope ev, behind isDefault a.selection with
  | [body], _ => some body
  | [], [body] => some body
  | [], [] => some []
  | _, _ => none

/-- A call with an integer. It is undefined when a case label is no constant, and when the function
ends without a status. -/
def call (scope : Scope) (a : Definition) (ev : Int) : Option Effect :=
  if a.selection.all (isConstant scope) then do
    let body ← a.start? scope ev
    match ← run scope body {} with
    | (out, some status) => return ⟨out, status⟩
    | (out, none) =>
      let (out, status) ← run scope a.ending out
      return ⟨out, ← status⟩
  else none

end Definition

open Instruction

/-- An accessor that consists of its cases, the refusal of everything else, and the return behind
the switch. -/
structure Definition.Regular (a : Definition) : Prop where
  selection : a.selection = a.cases.flatMap CaseText.instructions ++ refusal
  ending : a.ending = [.finish (.number 0)]

theorem Structure.regular_definition (settings : Settings) (s : Structure) :
    (s.definition settings).Regular := ⟨rfl, rfl⟩

/-- The labels of cases stand for consecutive integers. -/
def Consecutive (scope : Scope) (start : Int) (cases : List CaseText) : Prop :=
  ∀ (k : Nat) c, cases[k]? = some c → scope.value? c.label = some (start + k)

section Call

variable {scope : Scope} {start ev : Int} {cases : List CaseText} {c : CaseText}

/-- What is done in a case behind its label. -/
def CaseText.statements (c : CaseText) : List Instruction :=
  [.storeAddress c.inst c.path, .storeSize c.sizes c.index 1, .leave]

/-- A label is found in front of the statements of its case. -/
private theorem behind_flatMap_cons (rest : List CaseText) :
    behind (isCaseOf scope ev) ((c :: rest).flatMap CaseText.instructions ++ refusal) =
      let below := rest.flatMap CaseText.instructions ++ refusal
      if scope.value? c.label = some ev then
        (c.statements ++ below) :: behind (isCaseOf scope ev) below
      else behind (isCaseOf scope ev) below := by
  simp [CaseText.instructions, CaseText.statements, behind, isCaseOf]

private theorem Consecutive.head {rest : List CaseText}
    (consecutive : Consecutive scope start (c :: rest)) : scope.value? c.label = some start := by
  rw [consecutive 0 c rfl, Int.natCast_zero, Int.add_zero]

private theorem Consecutive.tail {rest : List CaseText}
    (consecutive : Consecutive scope start (c :: rest)) : Consecutive scope (start + 1) rest := by
  intro k d hd
  have shift : start + (k + 1 : Nat) = start + 1 + k := by omega
  rw [← shift]
  exact consecutive (k + 1) d hd

/-- Cases with constants as labels are no obstacle to a call. -/
theorem Consecutive.all_isConstant (consecutive : Consecutive scope start cases) :
    (cases.flatMap CaseText.instructions ++ refusal).all (isConstant scope) = true := by
  induction cases generalizing start with
  | nil => rfl
  | cons first rest ih =>
    have own : first.instructions.all (isConstant scope) = true := by
      simp [CaseText.instructions, isConstant, consecutive.head]
    rw [List.flatMap_cons, List.append_assoc, List.all_append, own, ih consecutive.tail]
    rfl

/-- No label stands for an integer outside the range. -/
theorem Consecutive.behind_eq_nil (consecutive : Consecutive scope start cases)
    (outside : ev < start ∨ start + cases.length ≤ ev) :
    behind (isCaseOf scope ev) (cases.flatMap CaseText.instructions ++ refusal) = [] := by
  induction cases generalizing start with
  | nil => rfl
  | cons first rest ih =>
    rw [List.length_cons] at outside
    have other : ¬scope.value? first.label = some ev := by
      rw [consecutive.head, Option.some.injEq]
      omega
    rw [behind_flatMap_cons]
    dsimp only
    rw [if_neg other]
    exact ih consecutive.tail (by omega)

/-- Exactly one label stands for an integer inside the range, that of the case at its place. -/
theorem Consecutive.exists_behind_eq (consecutive : Consecutive scope start cases) {k : Nat}
    (hc : cases[k]? = some c) :
    ∃ others, behind (isCaseOf scope (start + k))
      (cases.flatMap CaseText.instructions ++ refusal) = [c.statements ++ others] := by
  induction cases generalizing start k with
  | nil => cases hc
  | cons first rest ih =>
    rw [behind_flatMap_cons]
    dsimp only
    cases k with
    | zero =>
      cases hc
      rw [Int.natCast_zero, Int.add_zero, if_pos consecutive.head,
        consecutive.tail.behind_eq_nil (.inl (by omega))]
      exact ⟨_, rfl⟩
    | succ k =>
      have shift : start + (k + 1 : Nat) = start + 1 + k := by omega
      have other : ¬scope.value? first.label = some (start + 1 + k) := by
        rw [consecutive.head, Option.some.injEq]
        omega
      rw [shift, if_neg other]
      exact ih consecutive.tail hc

/-- One default label stands in front of the refusal. -/
private theorem behind_isDefault (cases : List CaseText) :
    behind isDefault (cases.flatMap CaseText.instructions ++ refusal) =
      [[.finish (.error "EINVAL".toList)]] := by
  induction cases with
  | nil => rfl
  | cons first rest ih =>
    rw [List.flatMap_cons, List.append_assoc]
    exact ih

variable {a : Definition}

/-- No case label of a regular accessor with consecutive cases is without a value. -/
private theorem Definition.Regular.all_isConstant (regular : a.Regular)
    (consecutive : Consecutive scope start a.cases) :
    a.selection.all (isConstant scope) = true := by
  rw [regular.selection]
  exact consecutive.all_isConstant

/-- An integer outside the range matches no case. It is refused with nothing stored. -/
theorem call_eq_refusal (regular : a.Regular) (consecutive : Consecutive scope start a.cases)
    (outside : ev < start ∨ start + a.cases.length ≤ ev) :
    a.matching scope ev = [] ∧ a.call scope ev = some ⟨{}, .error "EINVAL".toList⟩ := by
  have unmatched : a.matching scope ev = [] := by
    rw [Definition.matching, regular.selection]
    exact consecutive.behind_eq_nil outside
  have begins : a.start? scope ev = some [.finish (.error "EINVAL".toList)] := by
    rw [Definition.start?, unmatched, regular.selection, behind_isDefault]
  refine ⟨unmatched, ?_⟩
  rw [Definition.call, if_pos (regular.all_isConstant consecutive), begins]
  rfl

/-- An integer inside the range matches the case at its place and no other one. What the case says
is stored, and the call succeeds. -/
theorem call_eq_success (regular : a.Regular) (consecutive : Consecutive scope start a.cases)
    {k : Nat} (hc : a.cases[k]? = some c) {entry : SizeTable × Nat}
    (read : scope.entry? c.sizes c.index 1 = some entry) :
    (∃ body, a.matching scope (start + k) = [body]) ∧
      a.call scope (start + k) = some ⟨⟨some (c.inst, c.path), some entry⟩, .number 0⟩ := by
  obtain ⟨others, found⟩ := consecutive.exists_behind_eq hc
  have one : a.matching scope (start + k) = [c.statements ++ others] := by
    rw [Definition.matching, regular.selection, found]
  have begins : a.start? scope (start + k) = some (c.statements ++ others) := by
    rw [Definition.start?, one]
  have stored : run scope (c.statements ++ others) {} =
      some (⟨some (c.inst, c.path), some entry⟩, none) := by
    simp [CaseText.statements, run, read]
  refine ⟨⟨_, one⟩, ?_⟩
  rw [Definition.call, if_pos (regular.all_isConstant consecutive), begins]
  simp only [Option.bind_eq_bind, Option.bind_some, stored, regular.ending]
  rfl

end Call

end FieldTables
