import FieldTables.Generation
import FieldTables.Proofs.Outcome

/-!
# When generation succeeds

Artifacts are generated exactly from the texts that are read, flattened and found to have distinct
symbols, and they are printed from the flat header alone.
-/

namespace FieldTables

open Outcome

variable {settings : Settings} {text : Text}

/-- The flat header of statements, with distinct symbols: what a text compiles to once it is cut. -/
def compileStatements (settings : Settings) (extraTypes : List Text) (statements : List Statement) :
    Except Error Header := do
  let declared ← Header.ofStatements extraTypes statements
  let flat ← declared.flatten
  flat.checkSymbols settings
  return flat

/-- Statements compile to the flat header of the one that they declare, if its symbols are
admitted. -/
theorem compileStatements_eq_ok_iff {extraTypes : List Text} {statements : List Statement}
    {flat : Header} :
    compileStatements settings extraTypes statements = .ok flat ↔
      ∃ declared, Header.ofStatements extraTypes statements = .ok declared ∧
        declared.flatten = .ok flat ∧ flat.checkSymbols settings = .ok () := by
  constructor
  · intro ok
    obtain ⟨declared, read, rest⟩ := bind_eq_ok_iff.mp ok
    obtain ⟨found, flattened, rest⟩ := bind_eq_ok_iff.mp rest
    obtain ⟨_, checked, result⟩ := bind_eq_ok_iff.mp rest
    cases result
    exact ⟨declared, read, flattened, checked⟩
  · rintro ⟨declared, read, flattened, checked⟩
    refine bind_eq_ok_iff.mpr ⟨declared, read, bind_eq_ok_iff.mpr ⟨flat, flattened, ?_⟩⟩
    exact bind_eq_ok_iff.mpr ⟨(), checked, rfl⟩

/-- A text is compiled by cutting it into statements and compiling these. -/
theorem compile_eq_compileStatements (settings : Settings) (t : Text) :
    compile settings t =
      compileStatements settings settings.extraTypes (Statement.ofText t) := rfl

/-- A text compiles to the flat header of the one that it declares, if its symbols are admitted. -/
theorem compile_eq_ok_iff {flat : Header} :
    compile settings text = .ok flat ↔
      ∃ declared, Header.ofStatements settings.extraTypes (Statement.ofText text) = .ok declared ∧
        declared.flatten = .ok flat ∧ flat.checkSymbols settings = .ok () := by
  rw [compile_eq_compileStatements, compileStatements_eq_ok_iff]

/-- What is generated from a text are the artifacts of the header that it compiles to. -/
theorem generate_eq_ok_iff {out : Artifacts} :
    generate settings text = .ok out ↔
      ∃ flat, compile settings text = .ok flat ∧ out = flat.artifacts settings := by
  rw [generate]
  cases compile settings text with
  | error e => simp [Except.map]
  | ok flat => simp [Except.map, eq_comm]

end FieldTables
