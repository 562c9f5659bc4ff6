import QuantLinear.Checkpoint.Value
import QuantLinear.Fault

/-!
The quantization section of a checkpoint: what it says about activations, weight blocks and layers
that stay unquantized, and the layer configurations that follow from it.
-/

namespace QuantLinear

/-- What a device can do with eight bit weights. -/
structure Capability where
  float8 : Bool := true
  /-- The device takes one weight scale for each output channel. -/
  perChannel : Bool := true
  /-- Layers without weight blocks are packed in any case. -/
  forcePacked : Bool := false
deriving DecidableEq, Repr, Inhabited

namespace Capability

/-- The capability of the host. `setting` is the value of the environment variable that asks for
packed weights, where it is set; as for every such variable it ends before the first NUL. -/
def detect (setting : Option String) : Capability :=
  { forcePacked := (setting.map untilNul).any (["1", "true", "TRUE"].contains ·) }

end Capability

/-- Whether a weight has scales for blocks of it. -/
inductive WeightScheme where
  | whole
  | blocks
deriving DecidableEq, Repr

namespace WeightScheme

def label : WeightScheme → String
  | .whole => "FP8_W8A8"
  | .blocks => "FP8_BLOCK_W8A8"

end WeightScheme

namespace Value

/-- The value under a key, read as a given type. -/
def get {α : Type} (value : Value) (read : Value → Option α) (key : String) : Except Fault α :=
  match value.find? key with
  | none => throw (.checkpoint (.missingKey key))
  | some entry =>
    match read entry with
    | some result => pure result
    | none => throw (.checkpoint (.conversion key))

/-- The value under a key where it is there, is not null and has the given type. -/
def getOr {α : Type} (value : Value) (read : Value → Option α) (key : String) (default : α) : α :=
  ((value.find? key).bind read).getD default

end Value

/-- The quantization section of a checkpoint, understood. -/
structure Checkpoint where
  source : Value
  capability : Capability
  staticActivation : Bool
  blockSize : Option BlockSize
  ignoredLayers : List String
deriving Repr

namespace Checkpoint

/-- Whether the activations have a loaded scale. -/
def parseScheme (source : Value) : Except Fault Bool := do
  let scheme := source.getOr Value.text? "activation_scheme" "dynamic"
  if scheme = "static" then return true
  else if scheme = "dynamic" then return false
  else throw (.checkpoint (.unsupportedScheme scheme))

/-- The block size, where one is given. -/
def parseBlockSize (source : Value) (staticActivation : Bool) :
    Except Fault (Option BlockSize) := do
  match source.find? "weight_block_size" with
  | none => return none
  | some .null => return none
  | some _ =>
    let sizes ← source.get Value.sizes? "weight_block_size"
    match sizes with
    | [rows, columns] =>
      require (!staticActivation) (.checkpoint .blockNeedsDynamic)
      return some ⟨rows, columns⟩
    | _ => throw (.checkpoint (.blockLength sizes.length))

/-- Understands a section. Keys that are absent, null or of an unexpected type have defaults, the
block size excepted. -/
def parse (source : Value) (capability : Capability) : Except Fault Checkpoint := do
  let method := source.getOr Value.text? "quant_method" "fp8"
  require (method == "fp8") (.checkpoint (.foreignMethod method))
  let staticActivation ← parseScheme source
  let blockSize ← parseBlockSize source staticActivation
  return {
    source := source
    capability := capability
    staticActivation := staticActivation
    blockSize := blockSize
    ignoredLayers := source.getOr Value.texts? "ignored_layers" [] }

def parseNamed (source : Value) (capability : Capability) : Except Fault Checkpoint := do
  match source.find? "quant_method" with
  | none => throw (.checkpoint .noMethod)
  | some entry =>
    match entry.text? with
    | none => throw (.checkpoint .valueType)
    | some "fp8" => parse source capability
    | some method => throw (.checkpoint (.unsupportedMethod method))

def weightScheme (checkpoint : Checkpoint) : WeightScheme :=
  if checkpoint.blockSize.isSome then .blocks else .whole

/-- Whether weights are packed: never with blocks, and else where the device cannot multiply them
as they are or packing is asked for. -/
def usePacked (checkpoint : Checkpoint) : Bool :=
  checkpoint.blockSize.isNone
    && (!checkpoint.capability.float8 || checkpoint.capability.forcePacked)

/-- Whether a layer stays unquantized: it is named or lies below a named module. -/
def isIgnored (checkpoint : Checkpoint) (path : String) : Bool :=
  checkpoint.ignoredLayers.any fun ignored =>
    path == ignored || (ignored.toList ++ ['.']).isPrefixOf path.toList

def layerSpec (checkpoint : Checkpoint) (path : String) (inFeatures outFeatures : UInt64)
    (hasBias : Bool) (paramsKind : ElementKind) : Except Fault LayerSpec := do
  require (!checkpoint.isIgnored path) (.checkpoint (.layerIgnored path))
  return {
    inFeatures := inFeatures
    outFeatures := outFeatures
    perChannelSupported := checkpoint.capability.perChannel
    blockSize := checkpoint.blockSize
    usePacked := checkpoint.usePacked
    staticActivation := checkpoint.staticActivation
    hasBias := hasBias
    paramsKind := paramsKind
    path := path }

end Checkpoint

end QuantLinear
