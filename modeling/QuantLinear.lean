import QuantLinear.Layer.Forward
import QuantLinear.Checkpoint
import QuantLinear.Ownership
import QuantLinear.Proofs.EndToEnd
import QuantLinear.Proofs.Blocks
import QuantLinear.Proofs.Frozen
import QuantLinear.Proofs.Packing
import QuantLinear.Proofs.Chain
import QuantLinear.Proofs.Kernel.Outcome
import QuantLinear.Proofs.InPlace
import QuantLinear.Proofs.SideEffects
import QuantLinear.Proofs.Checkpoint
import QuantLinear.Proofs.SingleBlock
import QuantLinear.Proofs.Ownership
import QuantLinear.Proofs.Placeholders
import QuantLinear.Proofs.RoundTrip
import QuantLinear.Proofs.Numeric.Fields
import QuantLinear.Proofs.Numeric.Narrowing
import QuantLinear.Proofs.Slices
import QuantLinear.Proofs.Normalization
import QuantLinear.Proofs.ExactProduct
import QuantLinear.Proofs.Transfers
import QuantLinear.Proofs.Requests
import QuantLinear.Proofs.Numeric.Projection
import QuantLinear.Proofs.SectionLanguage
import QuantLinear.Proofs.IgnoredLayers
import QuantLinear.Proofs.MissingKernels
import QuantLinear.Proofs.Numeric.UpperHalf
import QuantLinear.Proofs.Contiguity
import QuantLinear.Proofs.Enumeration
