import FieldTables.Symbol.Labels

/-!
# Claims on symbols

Tags and ordinary identifiers are separate name spaces of C. Every generated symbol is claimed by
its owner in one of them, and a header whose claims meet is refused with the first two that do.
-/

namespace FieldTables

/-- A name space of C. -/
inductive NameSpace where
  /-- Tags of structures and enumerations. -/
  | tag
  /-- Enumerators, tables and functions. -/
  | ordinary
  deriving DecidableEq

/-- A symbol that its owner needs for itself. -/
structure Claim where
  /-- Where the symbol must be unique. -/
  space : NameSpace
  /-- The symbol. -/
  symbol : Text
  /-- What it names. -/
  owner : Owner
  deriving DecidableEq

/-- Whether two claims are on the same symbol. -/
def Claim.meets (a b : Claim) : Bool := a.space == b.space && a.symbol == b.symbol

/-- The symbols that are generated for a structure, in order. -/
def Structure.claims (settings : Settings) (s : Structure) : List Claim :=
  let l := s.labels settings
  [⟨.tag, l.enumTag, .enumeration s.name⟩, ⟨.ordinary, l.sentinel, .sentinel s.name⟩]
    ++ s.fields.names.map (fun field => ⟨.ordinary, l.constant field, .field s.name field⟩)
    ++ [⟨.ordinary, l.sizes, .sizeTable s.name⟩, ⟨.ordinary, l.accessor, .accessor s.name⟩]

namespace Header

/-- All claims of a header: the tags of its structures, then what is generated for each. -/
def claims (settings : Settings) (h : Header) : List Claim :=
  h.names.map (fun name => ⟨.tag, name, .structure name⟩)
    ++ h.entries.flatMap (Structure.claims settings)

/-- Each claim must meet none of those before it. -/
def admit? (earlier : List Claim) : List Claim → Except Error Unit
  | [] => .ok ()
  | claim :: rest =>
    match earlier.find? claim.meets with
    | some first => .error (.duplicateSymbol claim.symbol first.owner claim.owner)
    | none => admit? (claim :: earlier) rest

/-- Whether all symbols that are generated for a header are distinct. -/
def checkSymbols (settings : Settings) (h : Header) : Except Error Unit :=
  admit? [] (h.claims settings)

end Header

end FieldTables
