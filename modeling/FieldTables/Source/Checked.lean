import FieldTables.Generation
import FieldTables.Header.Calls
import FieldTables.Text.Slice

/-!
# Compilation with checked slices

A text is compiled here by the bytes of its parts: comments, statements, tokens and what stands
between brackets are slices that are found by their places. Nothing comes out where a slice does not
exist, a difference is below zero or a list is cut behind its end.
-/

namespace FieldTables.Checked

open Text

/-- A line without its comments, found by their delimiters, and whether a block comment is still
open. -/
def strip : (inside : Bool) → Text → Option (Text × Bool)
  | true, rest =>
    match place? ['*', '/'] rest with
    | none => some (blanked rest, true)
    | some stop =>
      match rest.slice? 0 (stop + 2), _later : rest.slice? (stop + 2) rest.width with
      | some comment, some behind =>
        (strip false behind).map fun (kept, still) => (blanked comment ++ kept, still)
      | _, _ => none
  | false, rest =>
    match place? ['/', '*'] rest, place? ['/', '/'] rest with
    | none, none => some (rest, false)
    | none, some line => (rest.slice? 0 line).map fun kept => (kept, false)
    | some block, line =>
      match line.filter (· < block) with
      | some line => (rest.slice? 0 line).map fun kept => (kept, false)
      | none =>
        match rest.slice? 0 block, _later : rest.slice? (block + 2) rest.width with
        | some front, some behind =>
          (strip true behind).map fun (kept, still) => (front ++ spaces 2 ++ kept, still)
        | _, _ => none
  termination_by _ t => t.length
  decreasing_by
    · exact length_lt_of_slice? _later (Nat.succ_pos _)
    · exact length_lt_of_slice? _later (Nat.succ_pos _)

/-- The statement of a piece. -/
def ofPiece (line : Nat) (piece : Nat × Text) : Option Statement := do
  let text := Statement.withoutClosing piece.2
  let leading ← minus? text.width text.trimStart.width
  return { text := text.trim, line := line, column := piece.1 + leading + 1 }

/-- The statements of a line that holds no comment. -/
def ofLine (line : Nat) (t : Text) : Option (List Statement) :=
  let code := Wrapper.blank t
  if Statement.isDirective code then some [{ text := [], line := line, column := 1 }]
  else (Statement.pieces 0 code).mapM (ofPiece line)

/-- The statements of the lines from a number on. -/
def ofLines (inside : Bool) (line : Nat) : List Text → Option (List Statement)
  | [] => some []
  | t :: rest => do
    let (code, still) ← strip inside t.withoutMarkers
    let here ← ofLine line code
    let others ← ofLines still (line + 1) rest
    return here ++ others

/-- The statements of a header text. -/
def statements (t : Text) : Option (List Statement) := ofLines false 1 t.physicalLines

/-- A token as it is written. -/
structure Word where
  /-- The characters of the token. -/
  text : Text
  /-- The byte column in the physical line. -/
  column : Nat

/-- The bytes between which the pieces of a text stand, from left to right. -/
def spans (start : Nat) (t : Text) : List (Nat × Nat) :=
  match _found : Piece.first? t with
  | some (p, rest) => (start, start + p.text.width) :: spans (start + p.text.width) rest
  | none =>
    match t with
    | [] => []
    | c :: rest => spans (start + c.utf8Size) rest
  termination_by t.length
  decreasing_by
    · exact Piece.length_lt_of_first? _found
    · exact Nat.lt_succ_self _

/-- An outcome that comes with all its slices. -/
def sure {ε α : Type} (outcome : Except ε α) : ExceptT ε Option α := some outcome

/-- The error for a part of a statement that is no token. -/
def unsupported (s : Statement) (start stop : Nat) : ExceptT Error Option (List Word) := do
  let stretch ← s.text.slice? start stop
  throw (.syntactic s.line (s.column + start) (.unsupported stretch s.text))

/-- The tokens of a statement that stand between the given bytes, behind those that have been read
up to a byte. -/
def wordsAt (s : Statement) (last : Nat) (words : List Word) :
    List (Nat × Nat) → ExceptT Error Option (List Word)
  | (start, stop) :: rest => do
    if last < start then unsupported s last start
    else
      let text ← s.text.slice? start stop
      if text.all isBlank then wordsAt s stop words rest
      else wordsAt s stop (words ++ [⟨text, s.column + start⟩]) rest
  | [] => if last ≠ s.text.width then unsupported s last s.text.width else return words

/-- The tokens of a statement. -/
def words (s : Statement) : ExceptT Error Option (List Word) := wordsAt s 0 [] (spans 0 s.text)

/-- Whether a token starts like an identifier. -/
def startsName (t : Text) : Bool := t.head?.any isLetter

/-- Read the tokens that follow, or report the column of the one that has no place. -/
def read (v : Vocabulary) (d : Declaration) :
    List Word → ExceptT (Nat × DeclarationError) Option Declaration
  | [] => return d
  | w :: rest =>
    if d.length.isSome then throw (w.column, .afterArray)
    else if w.text = structKeyword then
      match rest with
      | tag :: others =>
        if startsName tag.text then read v (d.addStructure tag.text) others
        else throw (w.column, .missingTag)
      | [] => throw (w.column, .missingTag)
    else if v.structures.contains w.text && d.inner.isNone && d.names.isEmpty then
      read v (d.addStructure w.text) rest
    else if v.types.contains w.text then read v (d.addPart w.text) rest
    else if w.text = ['*'] then read v { d.addPart ['*'] with pointer := true } rest
    else if w.text.head? = some '[' then
      if d.names.isEmpty then throw (w.column, .arrayWithoutName)
      else do
        let last ← minus? w.text.width 1
        let inside ← w.text.slice? 1 last
        if inside.trim.isEmpty then throw (w.column, .arrayWithoutLength)
        else read v { d with length := some inside.trim } rest
    else if startsName w.text then
      read v { d with names := d.names ++ [(w.text, w.column)] } rest
    else throw (w.column, .unexpected w.text)

/-- The field that a statement declares. -/
def field (v : Vocabulary) (s : Statement) : ExceptT Error Option Field := do
  let words ← words s
  let declared ← (read v {} words).run
  match declared >>= Declaration.field s.line s.column with
  | .ok field => return field
  | .error (column, why) => throw (.syntactic s.line column (.malformed s.text why))

/-- The tag of the structure that a statement opens. -/
def openedTag (s : Statement) : ExceptT Error Option Text := do
  match ← words s with
  | [keyword, tag, brace] =>
    if keyword.text = structKeyword ∧ startsName tag.text ∧ brace.text = ['{'] then return tag.text
    else throw (.syntactic s.line s.column (.badOpener s.text))
  | _ => throw (.syntactic s.line s.column (.badOpener s.text))

/-- The blocks of statements none of which is empty. -/
def blocks : List Statement → ExceptT Error Option (List Block)
  | [] => return []
  | s :: rest =>
    if s.isOpening then do
      let tag ← openedTag s
      let others ← blocks (rest.dropWhile fun t => !t.isOpening)
      return ⟨tag, s.line, rest.takeWhile fun t => !t.isOpening⟩ :: others
    else throw (.syntactic s.line s.column (.outside s.text))
  termination_by statements => statements.length
  decreasing_by
    have kept := (List.dropWhile_sublist (fun t => !t.isOpening) (l := rest)).length_le
    simp
    omega

/-- Add a structure with all fields that its block declares. -/
def addBlock (v : Vocabulary) (h : Header) (b : Block) : ExceptT Error Option Header := do
  let opened ← sure (h.addStructure b.name b.line)
  b.body.foldlM (fun h s => do sure (h.addField (← field v s))) opened

/-- The header that statements declare. -/
def header (extraTypes : List Text) (statements : List Statement) :
    ExceptT Error Option Header := do
  let blocks ← blocks (statements.filter fun s => !s.text.isEmpty)
  blocks.foldlM (addBlock (.extend extraTypes (blocks.map Block.name))) .empty

/-- The header with every structure flattened, by calls on a stack that is large enough. -/
def flatten (h : Header) : ExceptT Error Option Header :=
  match (h.flattenWithin (h.size + 1) {}).1 with
  | .ok flat => return flat
  | .error (.failed e) => throw e
  | .error _ => none

/-- The flat header of a text, with distinct symbols for everything that is generated from it. -/
def compile (settings : Settings) (t : Text) : ExceptT Error Option Header := do
  let statements ← statements t
  let declared ← header settings.extraTypes statements
  let flat ← flatten declared
  sure (flat.checkSymbols settings)
  return flat

end FieldTables.Checked
