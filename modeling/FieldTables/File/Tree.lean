import FieldTables.File.Operations
import FieldTables.Text.Bytes

/-!
# Trees of files

A tree holds files and directories, each at a location given by the names from the root. Paths are
resolved from a working directory, part by part: every part but the last must lead to a directory,
a single dot stays where it is, and two dots go up.

Only files are moved and removed; directories stay as they are.
-/

namespace FieldTables

/-- The names that lead from the root to a file or directory. -/
abbrev Location := List Text

/-- What a tree has at a location. -/
inductive Entry where
  /-- A file with its bytes. -/
  | file (content : ByteArray)
  /-- A directory. -/
  | directory

/-- Files and directories below a root. -/
structure FileTree where
  /-- What is at each location but the root. -/
  entries : List (Location × Entry) := []
  /-- The directory from which paths are resolved. -/
  working : Location := []

namespace FileTree

/-- What is at a location. -/
def get? (t : FileTree) (l : Location) : Option Entry :=
  if l.isEmpty then some .directory else t.entries.lookup l

/-- Put an entry at a location, in place of what is there. -/
def set (t : FileTree) (l : Location) (e : Entry) : FileTree :=
  { t with entries := (l, e) :: t.entries.filter (·.1 != l) }

/-- Take away what is at a location. -/
def erase (t : FileTree) (l : Location) : FileTree :=
  { t with entries := t.entries.filter (·.1 != l) }

private theorem lookup_filter_ne (entries : List (Location × Entry)) {l k : Location} (h : k ≠ l) :
    (entries.filter (·.1 != l)).lookup k = entries.lookup k := by
  induction entries with
  | nil => rfl
  | cons e rest ih =>
    obtain ⟨place, entry⟩ := e
    by_cases here : place = l
    · subst here
      have passed : (k == place) = false := by simpa using h
      simp [List.lookup_cons, passed, ih]
    · simp [here, List.lookup_cons, ih]

/-- An entry is found where it was put. -/
@[simp] theorem get?_set_self (t : FileTree) {l : Location} (e : Entry) (h : l ≠ []) :
    (t.set l e).get? l = some e := by
  simp [get?, set, h]

/-- Putting an entry changes no other location. -/
theorem get?_set_of_ne (t : FileTree) {l k : Location} (e : Entry) (h : k ≠ l) :
    (t.set l e).get? k = t.get? k := by
  have passed : (k == l) = false := by simpa using h
  simp [get?, set, List.lookup_cons, passed, lookup_filter_ne t.entries h]

/-- Taking an entry away changes no other location. -/
theorem get?_erase_of_ne (t : FileTree) {l k : Location} (h : k ≠ l) :
    (t.erase l).get? k = t.get? k := by
  simp [get?, erase, lookup_filter_ne t.entries h]

/-- Nothing is left where an entry was taken away. -/
@[simp] theorem get?_erase_self (t : FileTree) {l : Location} (h : l ≠ []) :
    (t.erase l).get? l = none := by
  simp only [get?, List.isEmpty_iff, h, if_false, erase, List.lookup_eq_none_iff,
    List.mem_filter, bne_iff_ne]
  exact fun _ kept same => kept.2 same.symm

/-- The most bytes that a name may have. -/
def nameLimit : Nat := 255

/-- The most bytes that a path may have. -/
def pathLimit : Nat := 4095

/-- What a name leads to from a directory. -/
def child (t : FileTree) (directory : Location) (name : Text) : Except FileError Entry :=
  if name.width > nameLimit then .error .nameTooLong
  else match t.get? (directory ++ [name]) with
    | some e => .ok e
    | none => .error .notFound

/-- The directory that a part of a path leads to from another one. -/
def step (t : FileTree) (directory : Location) (part : Text) : Except FileError Location :=
  if Path.isIdle part then .ok directory
  else if part = ['.', '.'] then .ok directory.dropLast
  else match t.child directory part with
    | .ok .directory => .ok (directory ++ [part])
    | .ok (.file _) => .error .notDirectory
    | .error e => .error e

/-- Where the last part of a path leads. -/
structure Place where
  /-- The directory that the parts before lead to. -/
  directory : Location
  /-- The last part, slashes at the end left out. -/
  name : Text
  /-- Whether slashes follow it, which asks for a directory. -/
  slash : Bool

/-- Whether a place is a directory by its name alone. -/
def Place.isDots (p : Place) : Bool := p.name == ['.'] || p.name == ['.', '.']

/-- The location of a place that is no dots. -/
def Place.location (p : Place) : Location := p.directory ++ [p.name]

/-- The place of a path. -/
def place (t : FileTree) (p : Path) : Except FileError Place :=
  if p.text.width > pathLimit then .error .nameTooLong
  else
    let start := if p.isAbsolute then [] else t.working
    match p.parts.reverse.dropWhile List.isEmpty with
    | [] => if p.isAbsolute then .ok ⟨start, ['.'], true⟩ else .error .notFound
    | name :: before => do
      let directory ← before.reverse.foldlM t.step start
      return ⟨directory, name, p.parts.getLast? == some []⟩

/-- What is at a place. -/
def entry (t : FileTree) (p : Place) : Except FileError Entry :=
  if p.isDots then .ok .directory
  else match t.child p.directory p.name with
    | .ok (.file content) => if p.slash then .error .notDirectory else .ok (.file content)
    | found => found

/-- Write bytes to a file, which is made if it does not exist. -/
def write (t : FileTree) (p : Path) (content : ByteArray) : Except FileError FileTree := do
  let place ← t.place p
  if place.isDots || place.slash then .error .isDirectory
  else match t.entry place with
    | .ok .directory => .error .isDirectory
    | .ok (.file _) => .ok (t.set place.location (.file content))
    | .error .notFound => .ok (t.set place.location (.file content))
    | .error e => .error e

/-- Move a file, in place of the file that stands where it goes. Both directories are resolved
before either name, and neither name may be dots. -/
def rename (t : FileTree) (source target : Path) : Except FileError FileTree := do
  let source ← t.place source
  let target ← t.place target
  if source.isDots || target.isDots then .error .busy
  else match t.child source.directory source.name with
    | .error e => .error e
    | .ok .directory => .error .isDirectory
    | .ok (.file content) =>
      match t.child target.directory target.name with
      | .error .nameTooLong => .error .nameTooLong
      | replaced =>
        if source.slash || target.slash then .error .notDirectory
        else match replaced with
          | .ok .directory => .error .isDirectory
          | _ => .ok ((t.erase source.location).set target.location (.file content))

/-- Remove a file. -/
def remove (t : FileTree) (p : Path) : Except FileError FileTree := do
  let place ← t.place p
  match t.entry place with
  | .ok (.file _) => .ok (t.erase place.location)
  | .ok .directory => .error .isDirectory
  | .error e => .error e

/-- The bytes of a file. -/
def read (t : FileTree) (p : Path) : Except FileError ByteArray := do
  match t.entry (← t.place p) with
  | .ok (.file content) => .ok content
  | .ok .directory => .error .isDirectory
  | .error e => .error e

/-- Do what changes a tree; what fails leaves it as it was. -/
def change (f : FileTree → Except FileError FileTree) : StateM FileTree (Except FileError Unit) :=
  fun t =>
    match f t with
    | .ok changed => (.ok (), changed)
    | .error e => (.error e, t)

instance : FileOperations (StateM FileTree) where
  write p text := change (·.write p text.bytes)
  rename source target := change (·.rename source target)
  remove p := change (·.remove p)
  isFile p := fun t => ((t.read p).isOk, t)
  read p := fun t =>
    match t.read p with
    | .ok content =>
      match Text.ofBytes? content with
      | some text => (.ok text, t)
      | none => (.error .notText, t)
    | .error e => (.error e, t)

/-!
## Trees before and after a run

The program uses none of what follows. It puts up the tree in which the program runs, and lists what
the program leaves there.
-/

/-- Make a directory and those on the way to it. -/
def makeDirectory (t : FileTree) (l : Location) : FileTree :=
  (List.range l.length).foldl (fun t depth =>
    let above := l.take (depth + 1)
    if (t.get? above).isSome then t else t.set above .directory) t

/-- Make a file with the directories on the way to it. -/
def makeFile (t : FileTree) (l : Location) (content : ByteArray) : FileTree :=
  (t.makeDirectory l.dropLast).set l (.file content)

/-- What is below a directory, in the order of the paths from it. The path of a directory ends in a
slash, and a file comes with its bytes. -/
def listing (t : FileTree) (directory : Location) : List (Text × Option ByteArray) :=
  let listed := t.entries.filterMap fun (l, e) =>
    if directory.isPrefixOf l && l != directory then
      let path := ['/'].intercalate (l.drop directory.length)
      match e with
      | .file content => some (path, some content)
      | .directory => some (path ++ ['/'], none)
    else none
  listed.mergeSort fun a b => !decide (b.1 < a.1)

end FileTree

end FieldTables
