import QuantLinear.Tensor.View
import QuantLinear.Kernel.Name

/-!
What can go wrong with elements, tensors, devices and the operations on them.
-/

namespace QuantLinear

/-- Elements that cannot be read or written as numbers. -/
inductive ElementFault where
  | unknownKind (code : Int)
  | notEncodable (kind : ElementKind)
  | notDecodable (kind : ElementKind)
deriving DecidableEq, Repr

namespace ElementFault

def message : ElementFault → String
  | .unknownKind code => "Unknown dtype " ++ toString code
  | .notEncodable kind => "Unsupported dtype for float conversion: " ++ kind.label
  | .notDecodable kind => "Unsupported dtype for float read: " ++ kind.label

end ElementFault

/-- Views and copies that a tensor does not allow. -/
inductive TensorFault where
  | undefined
  | rankMismatch
  | viewCount (source target : Shape)
  | viewLayout (source : View)
  | permuteRank
  | permuteOrder
  | sliceOutside (source : View)
  | noSuchAxis
  | copyShape
  | copyKind
  /-- A write past the bytes that a tensor asked for. Nothing says what comes of it, so nobody is told:
  it ends the action. -/
  | overrun
deriving DecidableEq, Repr

namespace TensorFault

/-- The text of a fault; a missing axis and an overrun have none. -/
def message? : TensorFault → Option String
  | .undefined => some "Access to an undefined tensor"
  | .rankMismatch => some "Shape and strides rank mismatch"
  | .viewCount source target =>
    some ("Cannot view tensor of shape " ++ Shape.describe source ++ " as "
      ++ Shape.describe target)
  | .viewLayout source => some ("view() requires a contiguous tensor, got " ++ source.describe)
  | .permuteRank => some "permute() order rank does not match tensor rank"
  | .permuteOrder => some "permute() order is not a permutation"
  | .sliceOutside source => some ("narrow() slice out of range for " ++ source.describe)
  | .noSuchAxis => none
  | .overrun => none
  | .copyShape => some "Cannot copy from tensor with different shape"
  | .copyKind => some "Cannot copy from tensor with different dtype"

end TensorFault

inductive DeviceFault where
  | noRuntime (device : Device)
  | notRegistrable
  | mismatch (first other : Device)
deriving DecidableEq, Repr

namespace DeviceFault

def message : DeviceFault → String
  | .noRuntime device => "No runtime registered for device " ++ device.describe
  | .notRegistrable => "Invalid device type for runtime registration"
  | .mismatch first other =>
    "Tensor devices mismatch " ++ first.describe ++ " vs " ++ other.describe ++ " from execute"

end DeviceFault

/-- Operands that an operation refuses before it looks for a kernel, and kernels it lacks. -/
inductive OperationFault where
  | addShapes
  | rearrangeMismatch (target source : View)
  | staticQuantizeShapes (target source : Shape)
  | groupQuantizeShapes (source target : View)
  | emptyGroups
  | emptyBlocks
  | repackRank (weight : View)
  | noKernel (kernel : Kernel) (type : DeviceType)
deriving DecidableEq, Repr

namespace OperationFault

def message : OperationFault → String
  | .addShapes => "Add requires operands of identical (broadcast) shape"
  | .rearrangeMismatch target source =>
    "Rearrange requires matching shape and dtype: " ++ target.describe ++ " vs " ++ source.describe
  | .staticQuantizeShapes target source =>
    "StaticScaledFp8Quant: output shape " ++ Shape.describe target
      ++ " does not match input shape " ++ Shape.describe source
  | .groupQuantizeShapes source target =>
    "PerTokenGroupQuantFp8 expects matching 2D input and output, got " ++ source.describe
      ++ " and " ++ target.describe
  | .emptyGroups => "PerTokenGroupQuantFp8: group_size must be positive"
  | .emptyBlocks => "BlockScaledMMFp8: block sizes must be positive"
  | .repackRank weight => "marlin_repack_fp8 expects a 2D weight, got " ++ weight.describe
  | .noKernel kernel type =>
    "No " ++ kernel.operation ++ " implementation found for device type: " ++ type.label

end OperationFault

end QuantLinear
