/-!
The kernels: the operations that each type of device supplies on its own.
-/

namespace QuantLinear

/-- An operation with an entry for each type of device. -/
inductive Kernel where
  | rearrange
  | add
  | staticQuantize
  | groupQuantize
  | scaledProduct
  | blockScaledProduct
  | repack
  | packedProduct
deriving DecidableEq, Repr, Inhabited

namespace Kernel

def all : List Kernel :=
  [.rearrange, .add, .staticQuantize, .groupQuantize, .scaledProduct, .blockScaledProduct,
    .repack, .packedProduct]

/-- The name under which a kernel is registered and reports its failures. -/
def label : Kernel → String
  | .rearrange => "rearrange"
  | .add => "add"
  | .staticQuantize => "static_scaled_fp8_quant"
  | .groupQuantize => "per_token_group_quant_fp8"
  | .scaledProduct => "scaled_mm_fp8"
  | .blockScaledProduct => "block_scaled_mm_fp8"
  | .repack => "marlin_repack_fp8"
  | .packedProduct => "marlin_gemm_fp8"

def operation : Kernel → String
  | .rearrange => "Rearrange"
  | .add => "Add"
  | .staticQuantize => "StaticScaledFp8Quant"
  | .groupQuantize => "PerTokenGroupQuantFp8"
  | .scaledProduct => "ScaledMMFp8"
  | .blockScaledProduct => "BlockScaledMMFp8"
  | .repack => "MarlinRepackFp8"
  | .packedProduct => "MarlinGemmFp8"

def ofLabel? (label : String) : Option Kernel := all.find? (·.label == label)

end Kernel

end QuantLinear
