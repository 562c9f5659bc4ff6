import QuantLinear.Element.Kind

/-!
How the weight of a layer is quantized, and how a layer's configuration decides it.
-/

namespace QuantLinear

/-- How far one weight scale reaches when the weight is not cut into blocks. -/
inductive Granularity where
  | channel
  | tensor
  | unspecified
deriving DecidableEq, Repr, Inhabited

namespace Granularity

def label : Granularity → String
  | .channel => "channel"
  | .tensor => "tensor"
  | .unspecified => "unknown"

end Granularity

/-- The quantization of a weight. -/
inductive Variant where
  /-- One scale for the whole weight or one for each output channel. -/
  | standard (granularity : Granularity)
  /-- One scale for each block of `rows` output and `columns` input features. -/
  | block (rows columns : UInt64)
  /-- The weight is repacked into tiles and multiplied with unquantized activations. -/
  | packed
deriving DecidableEq, Repr, Inhabited

namespace Variant

def describe : Variant → String
  | .standard granularity => "Standard(" ++ granularity.label ++ ")"
  | .block rows columns => "Block(" ++ toString rows ++ "x" ++ toString columns ++ ")"
  | .packed => "Packed"

/-- Whether two variants differ at most in their parameters. -/
def sameForm : Variant → Variant → Bool
  | .standard _, .standard _ => true
  | .block _ _, .block _ _ => true
  | .packed, .packed => true
  | _, _ => false

end Variant

/-- The sizes of weight blocks: output features by input features. -/
structure BlockSize where
  rows : UInt64
  columns : UInt64
deriving DecidableEq, Repr, Inhabited

structure LayerSpec where
  inFeatures : UInt64 := 0
  outFeatures : UInt64 := 0
  /-- The device multiplies with one weight scale for each output channel. -/
  perChannelSupported : Bool := false
  blockSize : Option BlockSize := none
  usePacked : Bool := false
  /-- The scale of the activations is loaded and not measured. -/
  staticActivation : Bool := false
  hasBias : Bool := false
  /-- The kind of the bias and of scales that no one loaded. -/
  paramsKind : ElementKind := .float .f32
  /-- The dotted name of the layer within its model. -/
  path : String := ""
deriving DecidableEq, Repr, Inhabited

namespace LayerSpec

/-- The variant of a layer: packed where asked for, else blocks of a usable size, else one scale
for each channel where the device supports it and no block size is set. -/
def variant (config : LayerSpec) : Variant :=
  if config.usePacked then .packed
  else match config.blockSize with
    | some size =>
      if 0 < size.rows && 0 < size.columns then .block size.rows size.columns
      else .standard .tensor
    | none => .standard (if config.perChannelSupported then .channel else .tensor)

end LayerSpec

end QuantLinear
