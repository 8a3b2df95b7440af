import FieldTables.Text.Basic

/-!
# Paths

A path is the list of what stands between its slashes. A first part without characters makes it
absolute, and a last one asks for a directory. The file name leaves such parts and single dots at
the end out of account; a path that ends in two dots has none. The directory part does the same at
its own end, so a path far longer than the names in it can have a short one.
-/

namespace FieldTables

/-- A path, cut at its slashes. -/
structure Path where
  /-- What stands between the slashes. -/
  parts : List Text
  deriving DecidableEq

namespace Path

/-- The path that a text writes. -/
def ofText (t : Text) : Path := ⟨t.splitOn '/'⟩

/-- A path as it is written. -/
def text (p : Path) : Text := ['/'].intercalate p.parts

/-- A path is written as it was read. -/
@[simp] theorem text_ofText (t : Text) : (ofText t).text = t := List.intercalate_splitOn '/'

/-- Whether the path starts at the root. -/
def isAbsolute (p : Path) : Bool :=
  match p.parts with
  | [] :: _ :: _ => true
  | _ => false

/-- A path taken from a directory on; an absolute path stays as it is. The program never needs this,
only who runs it in some directory of a tree. -/
def under (p directory : Path) : Path :=
  if p.isAbsolute then p else ⟨directory.parts ++ p.parts⟩

/-- Whether a part at the end of a path says nothing about its file name. -/
def isIdle (part : Text) : Bool := part.isEmpty || part == ['.']

/-- The parts without the idle ones at the end. The first part stays whatever it is: it tells where
the path starts, at the root or in the working directory. -/
def dropIdleEnd : List Text → List Text
  | [] => []
  | start :: rest => start :: (rest.reverse.dropWhile isIdle).reverse

/-- The directory part and the file name. -/
def splitFileName? (p : Path) : Option (List Text × Text) :=
  match p.parts.reverse.dropWhile isIdle with
  | [] => none
  | name :: before =>
    if name == ['.', '.'] then none else some (dropIdleEnd before.reverse, name)

/-- The file name. -/
def fileName? (p : Path) : Option Text := p.splitFileName?.map Prod.snd

/-- The hidden file beside a path: its file name between a dot and a suffix. A path without a file
name gets the hidden file as a further part. -/
def sibling (p : Path) (suffix : Text) : Path :=
  match p.splitFileName? with
  | some (before, name) => ⟨before ++ ['.' :: name ++ '.' :: suffix]⟩
  | none =>
    let kept := if p.parts.getLast? == some [] then p.parts.dropLast else p.parts
    ⟨kept ++ ['.' :: '.' :: suffix]⟩

end Path

end FieldTables
