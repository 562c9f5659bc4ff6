import QuantLinear.Fault.Tensor
import QuantLinear.Fault.Kernel
import QuantLinear.Fault.Layer
import QuantLinear.Fault.Checkpoint
import QuantLinear.Text

/-!
Everything that can go wrong, with its text and its class.
-/

namespace QuantLinear

inductive Fault where
  | element (cause : ElementFault)
  | tensor (cause : TensorFault)
  | device (cause : DeviceFault)
  | operation (cause : OperationFault)
  | layer (cause : LayerFault)
  | checkpoint (cause : CheckpointFault)
  | shapeMismatch (name : String) (expected actual : Shape)
  /-- A variant cannot be served on a device. -/
  | unsupportedVariant (variant : String) (device : Device) (cause : VariantFault)
  | kernelFailure (kernel : String) (cause : KernelFault)
  /-- A failure that the caller words. -/
  | stated (reason : String)
deriving DecidableEq, Repr

/-- The classes of failures that a caller can tell apart. -/
inductive FaultClass where
  | shapeMismatch
  | unsupportedVariant
  | kernelFailure
  | general
  | invalidArgument
  | outOfRange
  | runtime
  | valueType
  | noSuchLayer
deriving DecidableEq, Repr

namespace Fault

/-- The text of a fault, where it has one. -/
def wording? : Fault → Option String
  | .element cause => some cause.message
  | .tensor cause => cause.message?
  | .device cause => some cause.message
  | .operation cause => some cause.message
  | .layer cause => cause.message?
  | .checkpoint cause => cause.message?
  | .shapeMismatch name expected actual =>
    some ("Shape mismatch for '" ++ name ++ "': expected " ++ Shape.describe expected
      ++ ", got " ++ Shape.describe actual)
  | .unsupportedVariant variant site cause =>
    some ("Unsupported quantization variant " ++ variant ++ " on " ++ site.describe ++ ": "
      ++ cause.message)
  | .kernelFailure kernel cause => some (kernel ++ ": " ++ cause.message)
  | .stated reason => some reason

/-- The text of a fault as it is reported: up to its first NUL. -/
def message? (fault : Fault) : Option String := fault.wording?.map untilNul

def kind : Fault → FaultClass
  | .shapeMismatch _ _ _ => .shapeMismatch
  | .unsupportedVariant _ _ _ => .unsupportedVariant
  | .kernelFailure _ _ => .kernelFailure
  | .stated _ => .general
  | .tensor cause =>
    match cause with
    | .sliceOutside _ | .noSuchAxis => .outOfRange
    | _ => .runtime
  | .device cause =>
    match cause with
    | .notRegistrable => .outOfRange
    | _ => .runtime
  | .layer cause =>
    match cause with
    | .noSuchLayer => .noSuchLayer
    | .weightKind _ _ | .biasKind _ _ | .scaleKind _ _ _ | .inputKind _ _ | .inputDevice _ _ _ =>
      .general
    | .emptyFeatures _ | .narrowParams _ | .scaleUnused _ _ => .invalidArgument
    | .noParameter _ _ | .unknownScale => .outOfRange
    | _ => .runtime
  | .checkpoint cause =>
    match cause with
    | .layerIgnored _ => .invalidArgument
    | .missingKey _ => .outOfRange
    | .valueType => .valueType
    | _ => .runtime
  | .element _ | .operation _ => .runtime

end Fault

/-- Fails with `fault` unless `condition` holds. -/
def require (condition : Bool) (fault : Fault) : Except Fault Unit :=
  if condition then pure () else throw fault

end QuantLinear
