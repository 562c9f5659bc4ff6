import QuantLinear.Scheme.Variant

/-!
The scales of a layer: which ones a variant requires.
-/

namespace QuantLinear

inductive ScaleRole where
  | weight
  | weightInverse
  | input
deriving DecidableEq, Repr, Inhabited

namespace ScaleRole

def all : List ScaleRole := [.weight, .weightInverse, .input]

/-- The name of a scale as a parameter of its layer. -/
def label : ScaleRole → String
  | .weight => "weight_scale"
  | .weightInverse => "weight_scale_inv"
  | .input => "input_scale"

def ofLabel? (label : String) : Option ScaleRole := all.find? (·.label == label)

/-- The name of a scale; `none` stands for a scale that no layer holds. -/
def labelOrUnknown : Option ScaleRole → String
  | some kind => kind.label
  | none => "unknown"

end ScaleRole

namespace Variant

/-- The scales that a layer needs before it can multiply, in the order they are prepared. -/
def requiredScales (variant : Variant) (config : LayerSpec) : List ScaleRole :=
  match variant with
  | .standard _ => if config.staticActivation then [.weight, .input] else [.weight]
  | .block _ _ => [.weightInverse]
  | .packed => [.weight]

end Variant

end QuantLinear
