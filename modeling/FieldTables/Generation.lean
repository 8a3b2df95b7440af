import FieldTables.Artifact.Basic
import FieldTables.Header.Block
import FieldTables.Header.Leaves
import FieldTables.Symbol.Claim

/-!
# Generation

From the text of a header to what is generated from it: the text is read, flattened and checked for
symbols that meet. Nothing is printed unless all of that succeeds.
-/

namespace FieldTables

/-- The flat header of a text, with distinct symbols for everything that is generated from it. -/
def compile (settings : Settings) (t : Text) : Except Error Header := do
  let declared ← Header.ofStatements settings.extraTypes (Statement.ofText t)
  let flat ← declared.flatten
  flat.checkSymbols settings
  return flat

/-- The artifacts of a text. -/
def generate (settings : Settings) (t : Text) : Except Error Artifacts :=
  (compile settings t).map (Header.artifacts settings)

end FieldTables
