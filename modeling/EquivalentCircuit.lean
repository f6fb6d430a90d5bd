import EquivalentCircuit.Document.Codec
import EquivalentCircuit.Json.Printer
import EquivalentCircuit.Json.Reader
import EquivalentCircuit.Numeric.MachineScalar
import EquivalentCircuit.Policy.Format
import EquivalentCircuit.Transformer.ThreeWinding
import EquivalentCircuit.Transformer.TwoWinding
import EquivalentCircuit.Batch.Codec
import EquivalentCircuit.Batch.Run
import EquivalentCircuit.Document.File
import EquivalentCircuit.Files.Tree
import EquivalentCircuit.Json.File
import EquivalentCircuit.Policy.File
import EquivalentCircuit.Command.Run
import EquivalentCircuit.Main
import EquivalentCircuit.Proofs.Acceptance
import EquivalentCircuit.Proofs.Accounting
import EquivalentCircuit.Proofs.Admission
import EquivalentCircuit.Proofs.Binary64
import EquivalentCircuit.Proofs.Building
import EquivalentCircuit.Proofs.BuiltTap
import EquivalentCircuit.Proofs.ByName
import EquivalentCircuit.Proofs.Checked
import EquivalentCircuit.Proofs.Controls
import EquivalentCircuit.Proofs.ConversionIssues
import EquivalentCircuit.Proofs.ConvertedTaps
import EquivalentCircuit.Proofs.DocumentRoundTrip
import EquivalentCircuit.Proofs.FiniteNumbers
import EquivalentCircuit.Proofs.FirstOccurrence
import EquivalentCircuit.Proofs.Frozen
import EquivalentCircuit.Proofs.FrozenConversion
import EquivalentCircuit.Proofs.Isolation
import EquivalentCircuit.Proofs.JsonRecord
import EquivalentCircuit.Proofs.KeptControls
import EquivalentCircuit.Proofs.LastPosition
import EquivalentCircuit.Proofs.MachineArithmetic
import EquivalentCircuit.Proofs.MachineConversion
import EquivalentCircuit.Proofs.MachineNeutral
import EquivalentCircuit.Proofs.MachinePhasor
import EquivalentCircuit.Proofs.MachineRange
import EquivalentCircuit.Proofs.MachineSection
import EquivalentCircuit.Proofs.MachineSign
import EquivalentCircuit.Proofs.MachineTap
import EquivalentCircuit.Proofs.MachineZero
import EquivalentCircuit.Proofs.ModelRoundTrip
import EquivalentCircuit.Proofs.MovedSection
import EquivalentCircuit.Proofs.Neutral
import EquivalentCircuit.Proofs.Packing
import EquivalentCircuit.Proofs.PolicyAxes
import EquivalentCircuit.Proofs.PolicyFormats
import EquivalentCircuit.Proofs.RatioGroup
import EquivalentCircuit.Proofs.Rearranged
import EquivalentCircuit.Proofs.Repeats
import EquivalentCircuit.Proofs.Rounding
import EquivalentCircuit.Proofs.RunRoundTrip
import EquivalentCircuit.Proofs.SameFiles
import EquivalentCircuit.Proofs.ShuntPlacement
import EquivalentCircuit.Proofs.SignFlip
import EquivalentCircuit.Proofs.TableAdmission
import EquivalentCircuit.Proofs.TapCodec
import EquivalentCircuit.Proofs.TapSize
import EquivalentCircuit.Proofs.TapTables
import EquivalentCircuit.Proofs.TextOrder
import EquivalentCircuit.Proofs.TwoPort
import EquivalentCircuit.Proofs.RowMajor
import EquivalentCircuit.Proofs.Grouping
import EquivalentCircuit.Proofs.TapSymmetry
import EquivalentCircuit.Proofs.StructuralRatio
import EquivalentCircuit.Proofs.StarReference
import EquivalentCircuit.Proofs.StrictRun
import EquivalentCircuit.Proofs.LegLocality
import EquivalentCircuit.Proofs.LinearRatio
import EquivalentCircuit.Proofs.Reordering
import EquivalentCircuit.Proofs.EndExchange
