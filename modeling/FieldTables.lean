import FieldTables.File.Tree
import FieldTables.Main
import FieldTables.Proofs.Nesting.Holding
import FieldTables.Proofs.Nesting.Search
import FieldTables.Proofs.Nesting.Verification
import FieldTables.Proofs.Flattening.Unfolding
import FieldTables.Proofs.Flattening.Table
import FieldTables.Proofs.Flattening.Exactness
import FieldTables.Proofs.Symbol.Distinctness
import FieldTables.Proofs.Accessor.Execution
import FieldTables.Proofs.Accessor.Selection
import FieldTables.Proofs.Accessor.Parameter
import FieldTables.Proofs.File.Resolution
import FieldTables.Proofs.File.Sibling
import FieldTables.Proofs.Artifact.Agreement
import FieldTables.Proofs.Artifact.Guard
import FieldTables.Proofs.Artifact.Tag
import FieldTables.Proofs.File.AllOrNone
import FieldTables.Proofs.File.Failure
import FieldTables.Proofs.File.Survival
import FieldTables.Proofs.Flattening.Clash
import FieldTables.Proofs.Flattening.Refusal
import FieldTables.Proofs.Flattening.Idempotence
import FieldTables.Proofs.Flattening.Stability
import FieldTables.Proofs.Rearrangement
import FieldTables.Proofs.Source.Acceptance
import FieldTables.Proofs.Source.Comment
import FieldTables.Proofs.Source.Placement
import FieldTables.Proofs.Source.Attribution
import FieldTables.Proofs.Source.Grammar
import FieldTables.Proofs.Source.Insertion
import FieldTables.Proofs.Source.Pointing
import FieldTables.Proofs.Source.Printing
import FieldTables.Proofs.Json.Decoding
import FieldTables.Proofs.Source.Tokenizing
import FieldTables.Proofs.Source.Scanning
import FieldTables.Proofs.Source.HeldType
import FieldTables.Proofs.Source.BaseType
import FieldTables.Proofs.Building.History
import FieldTables.Proofs.Settings.Decoding
import FieldTables.Proofs.Flattening.Calls
import FieldTables.Proofs.Compilation
import FieldTables.Proofs.Source.Residue
