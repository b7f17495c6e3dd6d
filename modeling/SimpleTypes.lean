import SimpleTypes.Proofs.Schema.Runs
import SimpleTypes.Proofs.Time.Instant
import SimpleTypes.Proofs.Validation.Canonical
import SimpleTypes.Proofs.Validation.Derivation
import SimpleTypes.Schema.Builder
import SimpleTypes.Text.Printable
import SimpleTypes.Text.Quoted
import SimpleTypes.Validation.Declared
import SimpleTypes.Proofs.Validation.Atoms
import SimpleTypes.Proofs.Validation.Growth
import SimpleTypes.Proofs.Validation.Limits
import SimpleTypes.Proofs.Validation.Declarations
import SimpleTypes.Proofs.Validation.Blanks
import SimpleTypes.Proofs.Validation.Soundness
import SimpleTypes.Proofs.Validation.Modes
import SimpleTypes.Proofs.Validation.Numbers
import SimpleTypes.Proofs.Validation.Bounds
import SimpleTypes.Proofs.Validation.Unions
import SimpleTypes.Proofs.Validation.Lists
import SimpleTypes.Proofs.Validation.Flattening
import SimpleTypes.Proofs.Validation.Enumerations
import SimpleTypes.Proofs.Validation.Integers
import SimpleTypes.Proofs.Facet.Digits
import SimpleTypes.Proofs.Number.DecimalText
import SimpleTypes.Proofs.Time.Acceptance
import SimpleTypes.Proofs.Time.Midnight
import SimpleTypes.Proofs.Octets.Base64
import SimpleTypes.Proofs.Octets.Hex
import SimpleTypes.Proofs.Time.Parts
import SimpleTypes.Proofs.Time.DurationAcceptance
import SimpleTypes.Proofs.Text.Composition
import SimpleTypes.Proofs.Name.Histories
import SimpleTypes.Proofs.Validation.Names
import SimpleTypes.Proofs.Number.FloatingValues
import SimpleTypes.Proofs.Name.Grammar
import SimpleTypes.Proofs.Time.Moves
import SimpleTypes.Proofs.Validation.Units
import SimpleTypes.Proofs.Validation.Languages
