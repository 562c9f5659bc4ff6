import QuantLinear.Tensor.View
import QuantLinear.Kernel.Name

/-!
Why a kernel refuses its operands.
-/

namespace QuantLinear

/-- The reasons that kernels give. -/
inductive KernelFault where
  | notFloating
  | outputNotF8
  | scaleNotSingle
  | scaleNotPositive
  | groupScaleShape (actual : Shape) (rows groups : UInt64)
  | operandsNotF8
  | leftNotRowMajor (left : View)
  | rightNotColumnMajor (right : View)
  | innerExtents
  | outputShape
  | leftScaleCount
  | rightScaleCount
  | leftBlockScale (scale : View)
  | rightBlockScale (scale : View)
  | weightNotF8Matrix
  | weightNotTiled (shape : Shape)
  | packedTarget (expected : Shape)
  | leftNotWide
  | leftNotRowMajorWide (left : View)
  | packedOperand (rows columns : UInt64)
  | packedScale
  | injected
  | stated (reason : String)
deriving DecidableEq, Repr

namespace KernelFault

def message : KernelFault → String
  | .notFloating => "only floating dtypes are supported"
  | .outputNotF8 => "output must be F8"
  | .scaleNotSingle => "scale must hold a single value"
  | .scaleNotPositive => "scale must be positive and finite"
  | .groupScaleShape actual rows groups =>
    "scale shape " ++ Shape.describe actual ++ " does not match [" ++ toString rows ++ ", "
      ++ toString groups ++ "]"
  | .operandsNotF8 => "operands must be F8"
  | .leftNotRowMajor left => "a must be row-major, got " ++ left.describe
  | .rightNotColumnMajor right => "b must be column-major, got " ++ right.describe
  | .innerExtents => "inner dimensions differ"
  | .outputShape => "output shape mismatch"
  | .leftScaleCount => "a_scale must be contiguous with 1 or M values"
  | .rightScaleCount => "b_scale must be contiguous with 1 or N values"
  | .leftBlockScale scale =>
    "a_scale must be contiguous [M, ceil(K / block_k)], got " ++ scale.describe
  | .rightBlockScale scale =>
    "b_scale must be contiguous [ceil(N / block_n), ceil(K / block_k)], got " ++ scale.describe
  | .weightNotF8Matrix => "weight must be a 2D F8 tensor"
  | .weightNotTiled shape =>
    "weight " ++ Shape.describe shape ++ " is not a multiple of the tile size"
  | .packedTarget expected => "packed tensor must be contiguous I32 " ++ Shape.describe expected
  | .leftNotWide => "a must be a wide floating tensor"
  | .leftNotRowMajorWide left => "a must be row-major [M, K], got " ++ left.describe
  | .packedOperand rows columns =>
    "b_packed does not match [N, K] = " ++ Shape.describe [rows, columns]
  | .packedScale => "b_scale must be contiguous [N]"
  | .injected => "injected launch failure"
  | .stated reason => reason

end KernelFault

inductive VariantFault where
  | noKernel (kernel : Kernel)
  | notTiled (shape : Shape) (tile : UInt64)
  | stated (reason : String)
deriving DecidableEq, Repr

namespace VariantFault

def message : VariantFault → String
  | .noKernel kernel => "no " ++ kernel.label ++ " kernel registered"
  | .notTiled shape tile =>
    "weight " ++ Shape.describe shape ++ " is not a multiple of the " ++ toString tile
      ++ " packing tile"
  | .stated reason => reason

end VariantFault

end QuantLinear
