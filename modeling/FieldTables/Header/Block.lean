import FieldTables.Header.Growth
import FieldTables.Source.Declaration

/-!
# Blocks

A block is the opening of a structure with the statements up to the next opening. All blocks of a
header are found before any declaration is read, so a declaration may name a structure that comes
later.
-/

namespace FieldTables

namespace Statement

/-- Whether a statement opens a structure, or at least tries to. -/
def isOpening (s : Statement) : Bool := s.text.contains '{'

/-- The tag of the structure that a statement opens. -/
def openedTag (s : Statement) : Except Error Text := do
  match (← s.tokens).map Token.lexeme with
  | [.word keyword, .word tag, .brace] =>
    if keyword = structKeyword then return tag
    else throw (.syntactic s.line s.column (.badOpener s.text))
  | _ => throw (.syntactic s.line s.column (.badOpener s.text))

end Statement

/-- A structure before its declarations are read. -/
structure Block where
  /-- The tag. -/
  name : Text
  /-- The physical line of the opening. -/
  line : Nat
  /-- The statements up to the next opening. -/
  body : List Statement
  deriving DecidableEq

namespace Block

/-- The blocks of statements none of which is empty. -/
def ofNonempty : List Statement → Except Error (List Block)
  | [] => .ok []
  | s :: rest =>
    if s.isOpening then do
      let tag ← s.openedTag
      let others ← ofNonempty (rest.dropWhile fun t => !t.isOpening)
      return ⟨tag, s.line, rest.takeWhile fun t => !t.isOpening⟩ :: others
    else .error (.syntactic s.line s.column (.outside s.text))
  termination_by statements => statements.length
  decreasing_by
    have kept := (List.dropWhile_sublist (fun t => !t.isOpening) (l := rest)).length_le
    simp
    omega

/-- The blocks of a header; empty statements belong to none. -/
def ofStatements (statements : List Statement) : Except Error (List Block) :=
  ofNonempty (statements.filter fun s => !s.text.isEmpty)

end Block

namespace Header

/-- Add a structure with all fields that its block declares. -/
def addBlock (v : Vocabulary) (h : Header) (b : Block) : Except Error Header := do
  let opened ← h.addStructure b.name b.line
  b.body.foldlM (fun h s => do h.addField (← s.field v)) opened

/-- The header that statements declare. -/
def ofStatements (extraTypes : List Text) (statements : List Statement) : Except Error Header := do
  let blocks ← Block.ofStatements statements
  blocks.foldlM (addBlock (.extend extraTypes (blocks.map Block.name))) .empty

end Header

end FieldTables
