import FieldTables.Artifact.Accessor
import FieldTables.Proofs.Text.Cutting

/-!
# Instructions

The body of an accessor is read line by line. A line is a label or a statement: the address of a
member or an entry of a size table is stored, the switch is left, or the function returns. Tabs in
front of a line say nothing. What an accessor prints for a case is read back instruction by
instruction.
-/

namespace FieldTables

open Text

/-- What a function returns. -/
inductive Status where
  /-- A number. -/
  | number (n : Nat)
  /-- The negated value of the constant that an error is called by. -/
  | error (name : Text)
  deriving DecidableEq

/-- A label or a statement. -/
inductive Instruction where
  /-- The label of a case. -/
  | caseLabel (label : Text)
  /-- The label for everything that no case is for. -/
  | defaultLabel
  /-- Store the address of the member that a path leads to from an instance. -/
  | storeAddress (inst : Text) (path : List Text)
  /-- Store the entry of a size table at the value of a constant, less a number. -/
  | storeSize (sizes index : Text) (less : Nat)
  /-- Leave the switch. -/
  | leave
  /-- Return from the function. -/
  | finish (status : Status)
  deriving DecidableEq

/-- The number that decimal digits write. -/
def number? (t : Text) : Option Nat :=
  if t ≠ [] ∧ t.all Char.isDigit = true then some (Nat.ofDigitChars 10 t 0) else none

/-- A number is read back from its digits. -/
theorem number?_decimal (n : Nat) : number? (decimal n) = some n := by
  have digits : (decimal n).all Char.isDigit = true :=
    List.all_eq_true.mpr fun c mem => Nat.isDigit_of_mem_toDigits (by decide) (by decide) mem
  rw [number?, if_pos ⟨Nat.toDigits_ne_nil, digits⟩]
  exact congrArg some Nat.ofDigitChars_ten_toDigits

/-- The status that an expression gives. -/
def status? : Text → Option Status
  | '-' :: name => some (.error name)
  | t => (number? t).map .number

/-- The store of the address of what an expression names. -/
def storeAddress? (t : Text) : Option Instruction := do
  let path ← (t.dropWhile isNameCharacter).dropPrefix? "->".toList
  return .storeAddress (t.takeWhile isNameCharacter) (path.splitOn '.')

/-- The store of the entry that an expression names. -/
def storeSize? (t : Text) : Option Instruction := do
  let place ← between? ['['] [']'] (t.dropWhile isNameCharacter)
  let less ← (place.dropWhile isNameCharacter).dropPrefix? " - ".toList
  return .storeSize (t.takeWhile isNameCharacter) (place.takeWhile isNameCharacter) (← number? less)

/-- The instruction on a line. -/
def instruction? (line : Text) : Option Instruction :=
  let code := line.dropWhile (· == '\t')
  if code = "default:".toList then some .defaultLabel
  else if code = "break;".toList then some .leave
  else (between? "case ".toList [':'] code).map .caseLabel
    <|> (between? "*fieldptr = &".toList [';'] code).bind storeAddress?
    <|> (between? "*size = ".toList [';'] code).bind storeSize?
    <|> ((between? "return ".toList [';'] code).bind status?).map .finish

/-- A case of an accessor, as it is read. -/
structure CaseText where
  /-- The label. -/
  label : Text
  /-- The instance from which members are followed. -/
  inst : Text
  /-- The members that are followed. -/
  path : List Text
  /-- The table that is read. -/
  sizes : Text
  /-- The constant whose entry, less one, is read. -/
  index : Text

/-- A case as it is read. -/
def Accessor.caseText (a : Accessor) (c : AccessorCase) : CaseText :=
  ⟨c.label, a.inst, c.path, a.sizes, c.index⟩

/-- The instructions of a case. -/
def CaseText.instructions (c : CaseText) : List Instruction :=
  [.caseLabel c.label, .storeAddress c.inst c.path, .storeSize c.sizes c.index 1, .leave]

/-- The instructions for everything that no case is for. -/
def refusal : List Instruction := [.defaultLabel, .finish (.error "EINVAL".toList)]

/-- The cases that instructions make, four each, in front of the refusal of everything else. -/
def cases? : List Instruction → Option (List CaseText)
  | .caseLabel label :: .storeAddress inst path :: .storeSize sizes index 1 :: .leave :: rest => do
    return ⟨label, inst, path, sizes, index⟩ :: (← cases? rest)
  | rest => if rest = refusal then some [] else none

/-- Cases are told apart in their instructions. -/
theorem cases?_append_refusal (cases : List CaseText) :
    cases? (cases.flatMap CaseText.instructions ++ refusal) = some cases := by
  induction cases with
  | nil => rfl
  | cons c rest ih =>
    rw [List.flatMap_cons, CaseText.instructions]
    simp only [List.cons_append, List.nil_append, cases?, ih]
    rfl

section ReadBack

variable {a : Accessor} {c : AccessorCase} {inst sizes index : Text} {path : List Text}

/-- A label is read back. -/
theorem instruction?_caseLabel (label : Text) :
    instruction? ("\tcase ".toList ++ label ++ [':']) = some (.caseLabel label) := by
  have code : ("\tcase ".toList ++ label ++ [':']).dropWhile (· == '\t') =
      "case ".toList ++ label ++ [':'] := rfl
  have other : "case ".toList ++ label ++ [':'] ≠ "default:".toList := nofun
  have another : "case ".toList ++ label ++ [':'] ≠ "break;".toList := nofun
  simp only [instruction?, code, if_neg other, if_neg another, between?_append]
  rfl

/-- The members behind an instance are read back. -/
theorem storeAddress?_eq_some (named : inst.IsName) (members : ∀ member ∈ path, member.IsName)
    (reached : path ≠ []) :
    storeAddress? (inst ++ "->".toList ++ ['.'].intercalate path) =
      some (.storeAddress inst path) := by
  have shape : inst ++ "->".toList ++ ['.'].intercalate path =
      inst ++ '-' :: ('>' :: ['.'].intercalate path) := by simp
  have arrow : ('-' :: '>' :: ['.'].intercalate path).dropPrefix? "->".toList =
      some (['.'].intercalate path) := dropPrefix?_append "->".toList _
  have dots : ∀ member ∈ path, '.' ∉ member := fun member mem has =>
    absurd (members member mem '.' has) (by decide)
  rw [storeAddress?, shape, takeWhile_name named (by decide), dropWhile_name named (by decide),
    arrow]
  simp only [Option.bind_eq_bind, Option.bind_some, List.splitOn_intercalate '.' dots reached]
  rfl

/-- The store of an address is read back. -/
theorem instruction?_storeAddress (named : inst.IsName)
    (members : ∀ member ∈ path, member.IsName) (reached : path ≠ []) :
    instruction? ("\t\t*fieldptr = &".toList ++ inst ++ "->".toList ++
      ['.'].intercalate path ++ [';']) = some (.storeAddress inst path) := by
  have code : ("\t\t*fieldptr = &".toList ++ inst ++ "->".toList ++ ['.'].intercalate path ++
      [';']).dropWhile (· == '\t') = "*fieldptr = &".toList ++
        (inst ++ "->".toList ++ ['.'].intercalate path) ++ [';'] := by
    simp only [List.append_assoc]
    rfl
  have label : between? "case ".toList [':'] ("*fieldptr = &".toList ++
      (inst ++ "->".toList ++ ['.'].intercalate path) ++ [';']) = none := rfl
  rw [instruction?, code, if_neg nofun, if_neg nofun, label, between?_append]
  simp only [Option.bind_some, storeAddress?_eq_some named members reached]
  rfl

/-- An entry of a size table is read back. -/
theorem storeSize?_eq_some (named : sizes.IsName) (constant : index.IsName) :
    storeSize? (sizes ++ '[' :: index ++ " - 1]".toList) = some (.storeSize sizes index 1) := by
  have shape : sizes ++ '[' :: index ++ " - 1]".toList =
      sizes ++ '[' :: (index ++ ' ' :: "- 1".toList ++ [']']) := by simp
  have bracket : between? ['['] [']'] ('[' :: (index ++ ' ' :: "- 1".toList ++ [']'])) =
      some (index ++ ' ' :: "- 1".toList) := between?_append ['['] _ [']']
  have less : (' ' :: "- 1".toList).dropPrefix? " - ".toList = some ['1'] := by decide
  have one : number? ['1'] = some 1 := number?_decimal 1
  rw [storeSize?, shape, takeWhile_name named (by decide), dropWhile_name named (by decide),
    bracket]
  simp only [Option.bind_eq_bind, Option.bind_some, takeWhile_name constant (c := ' ') (by decide),
    dropWhile_name constant (c := ' ') (by decide), less, one]
  rfl

/-- The store of a size is read back. -/
theorem instruction?_storeSize (named : sizes.IsName) (constant : index.IsName) :
    instruction? ("\t\t*size = ".toList ++ sizes ++ '[' :: index ++ " - 1];".toList) =
      some (.storeSize sizes index 1) := by
  have code : ("\t\t*size = ".toList ++ sizes ++ '[' :: index ++ " - 1];".toList).dropWhile
      (· == '\t') = "*size = ".toList ++ (sizes ++ '[' :: index ++ " - 1]".toList) ++ [';'] := by
    simp
  have label : between? "case ".toList [':'] ("*size = ".toList ++
      (sizes ++ '[' :: index ++ " - 1]".toList) ++ [';']) = none := rfl
  have address : between? "*fieldptr = &".toList [';'] ("*size = ".toList ++
      (sizes ++ '[' :: index ++ " - 1]".toList) ++ [';']) = none := rfl
  rw [instruction?, code, if_neg nofun, if_neg nofun, label, address, between?_append]
  simp only [Option.bind_some, storeSize?_eq_some named constant]
  rfl

/-- The lines of a case are read back. -/
theorem mapM_instruction?_caseLines (inst : a.inst.IsName) (sizes : a.sizes.IsName)
    (members : ∀ member ∈ c.path, member.IsName) (reached : c.path ≠ []) (index : c.index.IsName) :
    (a.caseLines c).mapM instruction? = some (a.caseText c).instructions := by
  have ending : instruction? "\t\tbreak;".toList = some .leave := rfl
  simp only [Accessor.caseLines, List.mapM_cons, List.mapM_nil, instruction?_caseLabel,
    instruction?_storeAddress inst members reached, instruction?_storeSize sizes index, ending,
    Option.bind_eq_bind, Option.bind_some]
  rfl

/-- The lines of all cases are read back. -/
theorem mapM_instruction?_flatMap_caseLines (inst : a.inst.IsName) (sizes : a.sizes.IsName)
    {cases : List AccessorCase}
    (named : ∀ c ∈ cases, (∀ member ∈ c.path, member.IsName) ∧ c.path ≠ [] ∧ c.index.IsName) :
    (cases.flatMap a.caseLines).mapM instruction? =
      some ((cases.map a.caseText).flatMap CaseText.instructions) := by
  induction cases with
  | nil => rfl
  | cons c rest ih =>
    obtain ⟨⟨members, reached, index⟩, below⟩ := List.forall_mem_cons.mp named
    rw [List.flatMap_cons, List.mapM_append, mapM_instruction?_caseLines inst sizes members reached
      index, ih below]
    rfl

/-- The lines between the braces of the switch are read back. -/
theorem mapM_instruction?_selection (inst : a.inst.IsName) (sizes : a.sizes.IsName)
    (named : ∀ c ∈ a.cases, (∀ member ∈ c.path, member.IsName) ∧ c.path ≠ [] ∧ c.index.IsName) :
    (a.cases.flatMap a.caseLines ++ ["\tdefault:".toList, "\t\treturn -EINVAL;".toList]).mapM
      instruction? = some ((a.cases.map a.caseText).flatMap CaseText.instructions ++ refusal) := by
  have others : ["\tdefault:".toList, "\t\treturn -EINVAL;".toList].mapM instruction? =
      some refusal := by decide
  rw [List.mapM_append, mapM_instruction?_flatMap_caseLines inst sizes named, others]
  rfl

end ReadBack

end FieldTables
