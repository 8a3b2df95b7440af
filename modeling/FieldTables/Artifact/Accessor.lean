import FieldTables.Symbol.Labels

/-!
# Accessors

The accessor of a structure takes an enumerator and an instance. For the enumerator of a field it
stores the address of the member and the entry of the size table; for any other value, the sentinel
included, it fails and stores nothing.
-/

namespace FieldTables

/-- What an accessor does for one enumerator. -/
structure AccessorCase where
  /-- The enumerator. -/
  label : Text
  /-- The members to follow from the instance. -/
  path : List Text
  /-- The enumerator whose entry of the size table, less one for the sentinel, is stored. -/
  index : Text
  deriving DecidableEq

/-- A C function from enumerators to members. -/
structure Accessor where
  /-- The name of the function. -/
  name : Text
  /-- The tag of the structure. -/
  tag : Text
  /-- The parameter that holds the instance. -/
  inst : Text
  /-- The size table. -/
  sizes : Text
  /-- The cases in order. -/
  cases : List AccessorCase
  deriving DecidableEq

/-- The accessor of a structure's fields. -/
def Structure.accessor (settings : Settings) (s : Structure) : Accessor :=
  let l := s.labels settings
  { name := l.accessor
    tag := s.name
    inst := l.short
    sizes := l.sizes
    cases := s.fields.entries.map fun f =>
      { label := l.constant f.name, path := f.path, index := l.constant f.name } }

namespace Accessor

/-- The signature, which the declaration and the definition share. -/
def signature (a : Accessor) : Text :=
  "int ".toList ++ a.name ++ "(int ev, struct ".toList ++ a.tag ++ " *".toList ++ a.inst
    ++ ", void **fieldptr, unsigned int *size)".toList

/-- The lines of one case. -/
def caseLines (a : Accessor) (c : AccessorCase) : List Text :=
  ["\tcase ".toList ++ c.label ++ [':'],
   "\t\t*fieldptr = &".toList ++ a.inst ++ "->".toList ++ ['.'].intercalate c.path ++ [';'],
   "\t\t*size = ".toList ++ a.sizes ++ '[' :: c.index ++ " - 1];".toList,
   "\t\tbreak;".toList]

/-- The lines of the definition. -/
def lines (a : Accessor) : List Text :=
  [a.signature, "\x7b".toList, "\tswitch (ev) \x7b".toList]
    ++ a.cases.flatMap a.caseLines
    ++ ["\tdefault:".toList, "\t\treturn -EINVAL;".toList, "\t\x7d".toList, "\treturn 0;".toList,
        "\x7d".toList]

/-- The definition of an accessor. -/
def text (a : Accessor) : Text := ['\n'].intercalate a.lines ++ ['\n']

end Accessor

end FieldTables
