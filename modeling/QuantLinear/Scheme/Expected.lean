import QuantLinear.Fault

/-!
The shapes that the scales of a layer must have.
-/

namespace QuantLinear.Variant

/-- The shape of a scale of a layer with the given variant. The activations always have a single
scale; a variant does not use the other scales that it does not require. -/
def expectedShape (variant : Variant) (scale : Option ScaleRole) (spec : LayerSpec) :
    Except Fault Shape :=
  match scale, variant with
  | some .input, _ => pure [1]
  | some .weight, .standard .channel => pure [spec.outFeatures]
  | some .weight, .standard _ => pure [1]
  | some .weight, .packed => pure [spec.outFeatures]
  | some .weightInverse, .block rows columns =>
    pure [ceilDiv spec.outFeatures rows, ceilDiv spec.inFeatures columns]
  | scale, variant => throw (.layer (.scaleUnused scale variant))

end QuantLinear.Variant
