import Stackwright.Builder
import Stackwright.Registry
import Stackwright.Stock
import Stackwright.Text.Padding
import Stackwright.Ty.Declaration
import Stackwright.Ty.Name
import Stackwright.Value.Document
import Stackwright.Value.Snapshot
import Stackwright.Proofs.Registry.Requests
import Stackwright.Proofs.Code.Marks
import Stackwright.Proofs.Session.Changes
import Stackwright.Proofs.Emission.Calls
import Stackwright.Proofs.Session.Sound
import Stackwright.Proofs.Emission.Lines
import Stackwright.Proofs.Builder.Finish
import Stackwright.Proofs.Machine.Visits
import Stackwright.Proofs.Builder.Ending
import Stackwright.Proofs.Builder.Guards
import Stackwright.Proofs.Machine.Straight
import Stackwright.Proofs.Value.Conformance
import Stackwright.Proofs.Machine.Converting
import Stackwright.Proofs.Emission.Conversions
import Stackwright.Proofs.Tracing.Dumps
import Stackwright.Proofs.Tracing.Pairing
import Stackwright.Proofs.Emission.Names
import Stackwright.Proofs.Tracing.Tandem
import Stackwright.Proofs.Tracing.Structured
import Stackwright.Proofs.Tracing.Transcripts
import Stackwright.Proofs.Tracing.Shown
import Stackwright.Proofs.Tracing.Endings
import Stackwright.Proofs.Builder.Scripts
import Stackwright.Proofs.Builder.Levels
import Stackwright.Proofs.Structure.Sparing
import Stackwright.Proofs.Structure.Brackets
import Stackwright.Proofs.Structure.Turns
import Stackwright.Proofs.Structure.Discipline
import Stackwright.Proofs.Structure.Ledger
import Stackwright.Proofs.Structure.Accounts
import Stackwright.Proofs.Structure.Balance
import Stackwright.Proofs.Structure.Programs
import Stackwright.Proofs.Structure.Alternatives
import Stackwright.Proofs.Structure.Building
import Stackwright.Proofs.Machine.Calling
import Stackwright.Proofs.Machine.Frames
import Stackwright.Proofs.Slots.Stores
import Stackwright.Proofs.Slots.Kinds
import Stackwright.Proofs.Slots.Bounds
import Stackwright.Proofs.Slots.Finished
import Stackwright.Proofs.Process.Stamps
import Stackwright.Proofs.Process.Restamping
import Stackwright.Proofs.Process.Builders
import Stackwright.Proofs.Process.Interleaving
import Stackwright.Proofs.Process.Tokens
import Stackwright.Proofs.Process.Apart
import Stackwright.Proofs.Machine.Stretches
import Stackwright.Proofs.Machine.Aside
import Stackwright.Proofs.Tracing.Passing
import Stackwright.Proofs.Emission.Recording
import Stackwright.Proofs.Emission.Interludes
import Stackwright.Proofs.Builder.Standing
import Stackwright.Proofs.Tracing.Crossing
import Stackwright.Proofs.Machine.Places
import Stackwright.Proofs.Emission.Loading
import Stackwright.Proofs.Slots.InPlace
import Stackwright.Proofs.Ty.Order
import Stackwright.Proofs.Scalar.Widening
import Stackwright.Proofs.Emission.RoundTrip
import Stackwright.Proofs.Value.Fields
import Stackwright.Proofs.Emission.Parameters
import Stackwright.Proofs.Builder.Bodies
import Stackwright.Proofs.Value.Items
import Stackwright.Proofs.Emission.Stores
import Stackwright.Proofs.Builder.Items
import Stackwright.Proofs.Machine.Paths
import Stackwright.Proofs.Scalar.Words
import Stackwright.Proofs.Tracing.Showing
import Stackwright.Proofs.Builder.Fitting
import Stackwright.Proofs.Builder.Parts
import Stackwright.Proofs.Builder.Switches
import Stackwright.Proofs.Builder.Going
import Stackwright.Proofs.Builder.Loops
import Stackwright.Proofs.Builder.Conditions
import Stackwright.Proofs.Builder.Chains
import Stackwright.Proofs.Machine.Legs
import Stackwright.Proofs.Builder.Whiles
import Stackwright.Proofs.Builder.Enumerators
import Stackwright.Proofs.Emission.Indexing
import Stackwright.Proofs.Builder.Indexing
import Stackwright.Proofs.Builder.Exits
import Stackwright.Proofs.Builder.Breaks
import Stackwright.Proofs.Text.Pieces
import Stackwright.Proofs.Value.Openings
import Stackwright.Proofs.Builder.Defaults
import Stackwright.Proofs.Value.FullText
import Stackwright.Proofs.Machine.Room
import Stackwright.Proofs.Builder.Bringing
import Stackwright.Proofs.Builder.Spelling
import Stackwright.Proofs.Builder.Formatting
import Stackwright.Proofs.Slots.FormatArray
import Stackwright.Proofs.Value.Gathering
import Stackwright.Proofs.Value.Receivers
import Stackwright.Proofs.Scalar.Wrapping
import Stackwright.Proofs.Machine.Intakes
import Stackwright.Proofs.Scalar.Saturation
import Stackwright.Proofs.Emission.Words
import Stackwright.Proofs.Scalar.Calculations
import Stackwright.Proofs.Builder.Calculations
import Stackwright.Proofs.Machine.Operands
import Stackwright.Proofs.Machine.Beneath
import Stackwright.Proofs.Value.Nesting
import Stackwright.Proofs.Value.Sameness
import Stackwright.Proofs.Value.EqualityLaws
import Stackwright.Proofs.Json.Reading
import Stackwright.Proofs.Json.Writing
import Stackwright.Proofs.Value.Exporting
import Stackwright.Proofs.Builder.Transparency
