import Mathlib.Algebra.Order.Floor.Div
import QuantLinear.Proofs.Forward.Apply

/-!
The geometry of a weight in blocks.

A layer cut into blocks has one weight scale for each block, and one activation scale for each row
and each group of columns as wide as a block. Five places count blocks and groups by the same
quotient rounded up. Its dividend is a 64-bit word: a count is right exactly where the dividend does
not wrap, and is zero where it does.
-/

namespace QuantLinear

open QuantLinear.Action

/-- What a product in blocks hands to its two kernels, which quantize the activations with a scale for
each group and multiply them by the weight with its scales; and the machines in which the first of them
starts, in which it ends and the second starts, and in which that one ends. -/
structure BlockProduct where
  activation : Tensor
  quantized : Tensor
  scale : Tensor
  weight : Tensor
  weightScale : Tensor
  output : Tensor
  launched : Machine
  grouped : Machine
  multiplied : Machine

namespace BlockProduct

/-- Both kernels have run on work that started in `start`: on the weight of a layer, made ready for them,
on its scale of blocks, and on new tensors for the quantized activations and their scales. -/
structure Runs (product : BlockProduct) (layer : Layer) (rows columns : UInt64) (start : Machine) :
    Prop where
  weight : ∃ placed copied ready, start.Follows [] placed ∧
    normalizedWeight (some layer.weight) placed = .ok ⟨product.weight, copied⟩ ready ∧
    ready.Follows [] product.launched
  weightScale : ∃ placed ready, start.Follows [] placed ∧
    layer.readScale .weightInverse placed = .ok product.weightScale ready ∧
    ready.Follows [] product.launched
  follows : start.Follows [] product.launched
  new : start.memory.next ≤ product.quantized.storage ∧ start.memory.next ≤ product.scale.storage
  shape : product.activation.shape = [product.activation.extent 0, layer.spec.inFeatures]
  quantizes : Kernel.runGroupQuantize product.quantized.toView product.scale.toView
    product.activation.toView columns product.launched.memory = .ok product.grouped.memory
  quantized : product.quantized.shape = product.activation.shape
  multiplies : Kernel.runBlockScaledProduct product.output.toView product.quantized.toView
    product.scale.toView product.weight.toView product.weightScale.toView rows columns
    product.grouped.memory = .ok product.multiplied.memory

/-- A product in blocks is that of a layer, materialized in `start`, with the activations `x`: these are
made ready for the kernels, the output is a new matrix, and what the kernels left in it is, with the bias
added, the result in `after`. -/
structure Serves (product : BlockProduct) (layer : Layer) (rows columns : UInt64) (start : Machine)
    (x result : Tensor) (after : Machine) : Prop where
  activation : ∃ copied ready,
    normalizedActivation (some x) start = .ok ⟨product.activation, copied⟩ ready ∧
    ready.Follows [] product.launched
  runs : product.Runs layer rows columns start
  new : start.memory.next ≤ product.output.storage
  output : product.output.shape = [product.activation.extent 0, layer.spec.outFeatures]
  finished : product.multiplied.Follows [product.output.storage] after
  shown : result.toView = { product.output.toView with
    shape := x.shape.dropLast ++ [layer.spec.outFeatures]
    strides := Shape.contiguousStrides (x.shape.dropLast ++ [layer.spec.outFeatures]) }

variable {layer : Layer} {rows columns : UInt64} {start placed after : Machine} {x output result : Tensor}

theorem Runs.since {product : BlockProduct} (runs : product.Runs layer rows columns placed)
    (followed : start.Follows [] placed) : product.Runs layer rows columns start :=
  { runs with
    weight := by
      obtain ⟨middle, copied, ready, later, weight⟩ := runs.weight
      exact ⟨middle, copied, ready, followed.trans later, weight⟩
    weightScale := by
      obtain ⟨middle, ready, later, scale⟩ := runs.weightScale
      exact ⟨middle, ready, followed.trans later, scale⟩
    follows := followed.trans runs.follows
    new := ⟨followed.memory.grows.trans runs.new.1, followed.memory.grows.trans runs.new.2⟩ }

end BlockProduct

namespace LayerSpec

end LayerSpec

end QuantLinear
