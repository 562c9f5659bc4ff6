import QuantLinear.Layer.Materialize
import QuantLinear.Layout

/-!
Applying a layer to activations.
-/

namespace QuantLinear

namespace Variant

def kernels : Variant → List Kernel
  | .standard _ => [.staticQuantize, .groupQuantize, .scaledProduct]
  | .block _ _ => [.groupQuantize, .blockScaledProduct]
  | .packed => [.repack, .packedProduct]

end Variant

/-- Refuses a variant for which a device lacks a kernel. -/
def checkKernels (variant : Variant) (device : Device) : Action Unit := do
  let table := (← get).kernels
  variant.kernels.forM fun kernel =>
    (require (table.find? kernel device.type).isSome
      (.unsupportedVariant variant.describe device (.noKernel kernel)) : Except Fault Unit)

namespace Layer

/-- Refuses activations that do not fit a layer. -/
def checkActivation (layer : Layer) (activation : Handle) : Except Fault Tensor := do
  let path := layer.spec.path
  let some x := activation | throw (.layer (.undefinedInput path))
  let features := layer.spec.inFeatures
  let expected : Shape := x.shape.dropLast ++ [features]
  require (x.shape == expected) (.shapeMismatch "input" expected x.shape)
  require x.kind.isWideFloating (.layer (.inputKind path x.kind))
  require (x.device == layer.device) (.layer (.inputDevice path layer.device x.device))
  return x

/-- A scale of a materialized layer without gaps. -/
def readScale (layer : Layer) (role : ScaleRole) : Action Tensor := do
  match (layer.scales.get role).tensor? with
  | some scale => return (← normalizedScale (some scale)).tensor
  | none => throw (.layer (.scaleMissing layer.spec.path role))

def multiplyStandard (layer : Layer) (x output : Tensor) : Action Unit := do
  let features := layer.spec.inFeatures
  let w := (← normalizedWeight (some layer.weight)).tensor
  let weightScale ← layer.readScale .weight
  let quantized ← allocateTensor [x.extent 0, features] (.float .f8) x.device
  let inputScale ← if layer.spec.staticActivation then do
      let scale ← layer.readScale .input
      staticQuantizeInto (some quantized) (some x) (some scale)
      pure scale
    else do
      let scale ← allocateTensor [x.extent 0, 1] (.float .f32) x.device
      groupQuantizeInto (some quantized) (some scale) (some x) features
      pure scale
  scaledProductInto (some output) (some quantized) (some inputScale) (some w) (some weightScale)

def multiplyBlocks (layer : Layer) (rows columns : UInt64) (x output : Tensor) : Action Unit := do
  let features := layer.spec.inFeatures
  let w := (← normalizedWeight (some layer.weight)).tensor
  let weightScale ← layer.readScale .weightInverse
  let quantized ← allocateTensor [x.extent 0, features] (.float .f8) x.device
  let scale ← allocateTensor [x.extent 0, ceilDiv features columns] (.float .f32) x.device
  groupQuantizeInto (some quantized) (some scale) (some x) columns
  blockScaledProductInto (some output) (some quantized) (some scale) (some w) (some weightScale)
    rows columns

def multiplyPacked (layer : Layer) (x output : Tensor) : Action Unit := do
  let weightScale ← layer.readScale .weight
  packedProductInto (some output) (some x) (some layer.weight) (some weightScale)
    layer.spec.outFeatures layer.spec.inFeatures

def addBias (layer : Layer) (output : Tensor) : Action Unit := do
  match layer.bias with
  | none => pure ()
  | some bias =>
    let rows ← share (← bias.toView.restride [output.extent 0, layer.spec.outFeatures]
      [0, bias.stride 0])
    addInto (some output) (some output) (some rows)

/-- The product of a materialized layer with activations that fit it. -/
def product (layer : Layer) (activation : Tensor) : Action Tensor := do
  let x := (← normalizedActivation (some activation)).tensor
  let features := layer.spec.outFeatures
  let output ← allocateTensor [x.extent 0, features] activation.kind layer.device
  match layer.variant with
  | .standard _ => layer.multiplyStandard x output
  | .block rows columns => layer.multiplyBlocks rows columns x output
  | .packed => layer.multiplyPacked x output
  layer.addBias output
  share (← output.toView.reshape (activation.shape.dropLast ++ [features]))

end Layer

/-- Applies a layer to activations: `output[…, n] = Σ activation[…, k] · weight[n, k] + bias[n]`
through the kernels of the layer's variant. The layer is materialized on the way. -/
def applyLayer (id : LayerId) (activation : Handle) : Action Tensor := do
  let before ← findLayer id
  checkKernels before.variant before.device
  ensureMaterialized id
  let layer ← findLayer id
  let x ← layer.checkActivation activation
  layer.product x

end QuantLinear
