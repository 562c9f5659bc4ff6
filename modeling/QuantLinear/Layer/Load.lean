import QuantLinear.Tensor.Transfer

/-!
Building layers and attaching parameters to them.

A parameter is checked and brought to the layer's device before anything of the layer changes. A
set of parameters is attached after all of them have passed.
-/

namespace QuantLinear

abbrev LayerId := Nat

def findLayer (id : LayerId) : Action Layer := do
  match (← get).layers[id]? with
  | some layer => pure layer
  | none => throw (.layer .noSuchLayer)

def setLayer (id : LayerId) (layer : Layer) : Action Unit :=
  modify fun machine => { machine with layers := machine.layers.setIfInBounds id layer }

namespace LayerSpec

/-- Refuses layers without features and layers whose parameters are not of a wide floating kind. -/
def check (spec : LayerSpec) : Except Fault Unit := do
  require (spec.inFeatures != 0 && spec.outFeatures != 0) (.layer (.emptyFeatures spec.path))
  require spec.paramsKind.isWideFloating (.layer (.narrowParams spec.paramsKind))

def weightShape (spec : LayerSpec) : Shape := [spec.outFeatures, spec.inFeatures]

end LayerSpec

/-- Builds a layer with zeros for its weight and its bias. -/
def buildLayer (spec : LayerSpec) (device : Device) : Action LayerId := do
  spec.check
  let weight ← zeroTensor spec.weightShape (.float .f8) device
  let bias ← if spec.hasBias then some <$> zeroTensor [spec.outFeatures] spec.paramsKind device
    else pure none
  let layer : Layer := ⟨spec, device, weight, bias, {}, false, false, 0⟩
  let id := (← get).layers.size
  modify fun machine => { machine with layers := machine.layers.push layer }
  return id

/-- A parameter that has passed all checks. -/
inductive Parameter where
  | weight (tensor : Tensor)
  | bias (tensor : Tensor)
  | scale (role : ScaleRole) (value : Handle)
deriving DecidableEq, Repr

namespace Layer

def attach (layer : Layer) : Parameter → Layer
  | .weight tensor => { layer with weight := tensor }
  | .bias tensor => { layer with bias := some tensor }
  | .scale role value => { layer with scales := layer.scales.set role (.ofTensor? value) }

/-- The tensor of the parameter with a name. The bias and the scales may be undefined. -/
def parameter (layer : Layer) (name : String) : Except Fault Handle :=
  if name = "weight" then pure (some layer.weight)
  else if name = "bias" then pure layer.bias
  else
    match ScaleRole.ofLabel? name with
    | some role => pure (layer.scales.get role).tensor?
    | none => throw (.layer .unknownScale)

/-- Refuses a parameter once the layer is materialized. -/
def checkOpen (layer : Layer) (name : String) : Except Fault Unit :=
  require (!layer.materialized) (.layer (.frozen name layer.spec.path))

def checkWeight (layer : Layer) (value : Handle) : Except Fault Tensor := do
  let path := layer.spec.path
  let some tensor := value | throw (.layer (.undefinedWeight path))
  require (tensor.kind == .float .f8) (.layer (.weightKind path tensor.kind))
  let expected := layer.spec.weightShape
  require (tensor.shape == expected) (.shapeMismatch "weight" expected tensor.shape)
  return tensor

def checkBias (layer : Layer) (value : Handle) : Except Fault Tensor := do
  let path := layer.spec.path
  require layer.spec.hasBias (.layer (.noBias path))
  let some tensor := value | throw (.layer (.undefinedBias path))
  let expected : Shape := [layer.spec.outFeatures]
  require (tensor.shape == expected) (.shapeMismatch "bias" expected tensor.shape)
  require tensor.kind.isWideFloating (.layer (.biasKind path tensor.kind))
  return tensor

/-- Checks a parameter by name and brings it to the layer's device. Scales are taken as they are:
what they must look like is known once the layer is materialized. -/
def stage (layer : Layer) (name : String) (value : Handle) : Action Parameter := do
  if name = "weight" then
    return .weight (← toDevice (← layer.checkWeight value) layer.device)
  else if name = "bias" then
    return .bias (← toDevice (← layer.checkBias value) layer.device)
  else
    match ScaleRole.ofLabel? name with
    | some role => return .scale role value
    | none => throw (.layer (.noParameter layer.spec.path name))

end Layer

/-- Attaches one parameter to a layer. -/
def loadParameter (id : LayerId) (name : String) (value : Handle) : Action Unit := do
  let layer ← findLayer id
  layer.checkOpen name
  let parameter ← layer.stage name value
  setLayer id (layer.attach parameter)

/-- Attaches a set of parameters to a layer, all or none. They are checked from the last to the
first, so that of several faults the last one is reported. -/
def loadParameters (id : LayerId) (entries : List (String × Handle)) : Action Unit := do
  let layer ← findLayer id
  let parameters ← entries.reverse.mapM fun (name, value) => do
    layer.checkOpen name
    layer.stage name value
  setLayer id (parameters.foldl Layer.attach layer)

end QuantLinear
