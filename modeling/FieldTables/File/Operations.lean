import FieldTables.Error
import FieldTables.File.Path

/-!
# File operations

The few operations on files that a run needs. Whatever runs in a context that offers them can run
on real files and on a tree of files in memory alike.
-/

namespace FieldTables

/-- A context in which files can be written, moved, removed and read. -/
class FileOperations (m : Type → Type) where
  /-- Write a text to a file, which is made if it does not exist. -/
  write : Path → Text → m (Except FileError Unit)
  /-- Move a file, in place of the file that stands where it goes. -/
  rename : Path → Path → m (Except FileError Unit)
  /-- Remove a file. -/
  remove : Path → m (Except FileError Unit)
  /-- Whether a path leads to a file. -/
  isFile : Path → m Bool
  /-- Read a file as a text. -/
  read : Path → m (Except FileError Text)

end FieldTables
