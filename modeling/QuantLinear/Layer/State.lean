import QuantLinear.Tensor.View
import QuantLinear.Scheme.Scale

/-!
Layers: a configuration together with the parameters that are attached to it.

A layer takes parameters until it is materialized. From then on every scale that its variant
requires is present, and nothing changes any more.
-/

namespace QuantLinear

inductive ScaleSlot where
  | absent
  /-- An undefined tensor was loaded. -/
  | cleared
  | held (scale : Tensor)
deriving DecidableEq, Repr, Inhabited

namespace ScaleSlot

/-- The slot after a tensor that may be undefined is loaded into it. -/
def ofTensor? : Option Tensor → ScaleSlot
  | some scale => .held scale
  | none => .cleared

def tensor? : ScaleSlot → Option Tensor
  | .held scale => some scale
  | _ => none

end ScaleSlot

structure ScaleSlots where
  weight : ScaleSlot := .absent
  weightInverse : ScaleSlot := .absent
  input : ScaleSlot := .absent
deriving DecidableEq, Repr, Inhabited

namespace ScaleSlots

def get (slots : ScaleSlots) : ScaleRole → ScaleSlot
  | .weight => slots.weight
  | .weightInverse => slots.weightInverse
  | .input => slots.input

def set (slots : ScaleSlots) (role : ScaleRole) (slot : ScaleSlot) : ScaleSlots :=
  match role with
  | .weight => { slots with weight := slot }
  | .weightInverse => { slots with weightInverse := slot }
  | .input => { slots with input := slot }

theorem get_set (slots : ScaleSlots) (role other : ScaleRole) (slot : ScaleSlot) :
    (slots.set role slot).get other = if role = other then slot else slots.get other := by
  cases role <;> cases other <;> rfl

end ScaleSlots

/-- A linear layer with an eight bit weight. -/
structure Layer where
  spec : LayerSpec
  device : Device
  weight : Tensor
  bias : Option Tensor
  scales : ScaleSlots
  /-- Whether the weight has its packed form. -/
  repacked : Bool
  materialized : Bool
  /-- The number of scales that were made up because no one loaded them. -/
  placeholders : Nat
deriving DecidableEq, Repr

namespace Layer

def variant (layer : Layer) : Variant := layer.spec.variant

/-- One line on the layer: its features, whether it has a bias, and its variant. -/
def describe (layer : Layer) : String :=
  "Fp8Linear(in_features=" ++ toString layer.spec.inFeatures ++ ", out_features="
    ++ toString layer.spec.outFeatures ++ ", bias="
    ++ (if layer.spec.hasBias then "true" else "false") ++ ", variant=" ++ layer.variant.describe ++ ")"

/-- The parameters that hold a tensor, by name. -/
def parameters (layer : Layer) : List (String × Tensor) :=
  ("weight", layer.weight) :: (layer.bias.map fun bias => ("bias", bias)).toList
    ++ ScaleRole.all.filterMap fun role =>
      (layer.scales.get role).tensor?.map fun scale => (role.label, scale)

end Layer

/-- The report on a scale that was made up for a layer. -/
structure Placeholder where
  layer : String
  scale : ScaleRole
  shape : Shape
  kind : ElementKind
  device : Device
deriving DecidableEq, Repr

end QuantLinear
