import QuantLinear.Tensor.View
import QuantLinear.Scheme.Scale

/-!
What can go wrong with a layer: its configuration, its parameters and its input. `layer` is the
dotted name of the layer.
-/

namespace QuantLinear

/-- The faults of a layer and of the operands that are made ready for it. -/
inductive LayerFault where
  | noSuchLayer
  | emptyFeatures (layer : String)
  | narrowParams (kind : ElementKind)
  | frozen (parameter layer : String)
  | undefinedWeight (layer : String)
  | weightKind (layer : String) (actual : ElementKind)
  | noBias (layer : String)
  | undefinedBias (layer : String)
  | biasKind (layer : String) (actual : ElementKind)
  | noParameter (layer parameter : String)
  /-- A scale was asked for that no layer has. -/
  | unknownScale
  | scaleMissing (layer : String) (scale : ScaleRole)
  | scaleKind (scale : ScaleRole) (layer : String) (actual : ElementKind)
  | scaleUnused (scale : Option ScaleRole) (variant : Variant)
  | undefinedInput (layer : String)
  | inputKind (layer : String) (actual : ElementKind)
  | inputDevice (layer : String) (expected actual : Device)
  | activationRank (activation : View)
  | weightRank (weight : View)
  | observerFailed
deriving DecidableEq, Repr

namespace LayerFault

private def named (layer : String) : String := "Fp8Linear '" ++ layer ++ "'"

/-- The text of a fault; a layer or a scale that does not exist has none. -/
def message? : LayerFault → Option String
  | .noSuchLayer | .unknownScale => none
  | .emptyFeatures layer => some (named layer ++ " needs non-zero in_features and out_features")
  | .narrowParams kind =>
    some ("Fp8Linear params_dtype must be a wide floating type, got " ++ kind.label)
  | .frozen parameter layer =>
    some ("Cannot load '" ++ parameter ++ "' into " ++ named layer
      ++ ": the layer is already materialized")
  | .undefinedWeight layer => some (named layer ++ ": weight must be defined")
  | .weightKind layer actual => some (named layer ++ ": weight must be F8, got " ++ actual.label)
  | .noBias layer => some (named layer ++ " was built without bias")
  | .undefinedBias layer => some (named layer ++ ": bias must be defined")
  | .biasKind layer actual =>
    some (named layer ++ ": bias must be a wide floating type, got " ++ actual.label)
  | .noParameter layer parameter =>
    some (named layer ++ " has no parameter named '" ++ parameter ++ "'")
  | .scaleMissing layer scale =>
    some (named layer ++ " has no '" ++ scale.label ++ "' after materialization")
  | .scaleKind scale layer actual =>
    some ("Scale '" ++ scale.label ++ "' of layer '" ++ layer ++ "' must be floating point, got "
      ++ actual.label)
  | .scaleUnused scale variant =>
    some ("Scale '" ++ ScaleRole.labelOrUnknown scale ++ "' is not used by variant "
      ++ variant.describe)
  | .undefinedInput layer => some (named layer ++ " got an undefined input")
  | .inputKind layer actual =>
    some (named layer ++ " expects a wide floating input, got " ++ actual.label)
  | .inputDevice layer expected actual =>
    some (named layer ++ " lives on " ++ expected.describe ++ " but the input is on "
      ++ actual.describe)
  | .activationRank activation =>
    some ("normalize_activation expects at least one dimension, got " ++ activation.describe)
  | .weightRank weight =>
    some ("normalize_weight expects a 2D [N, K] weight, got " ++ weight.describe)
  | .observerFailed => some "observer failed"

end LayerFault

end QuantLinear
