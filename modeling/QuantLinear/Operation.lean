import QuantLinear.Tensor.Create
import QuantLinear.Kernel.Elementwise
import QuantLinear.Kernel.Quantize
import QuantLinear.Kernel.Packed

/-!
Operations on tensors: the checks that come before a kernel, and the launch of the kernel of the
operands' device.
-/

namespace QuantLinear

/-- Refuses operands on different devices. -/
def requireSameDevice (first : Handle) (others : List Handle) : Except Fault Unit :=
  others.forM fun other => do
    let a ← first.defined
    let b ← other.defined
    require (a.device == b.device) (.device (.mismatch a.device b.device))

/-- Copies `source` into `target` element by element. -/
def rearrangeInto (target source : Handle) : Action Unit := do
  requireSameDevice target [source]
  let y ← target.defined
  let x ← source.defined
  require (y.shape == x.shape && y.kind == x.kind)
    (.operation (.rearrangeMismatch y.toView x.toView))
  launch .rearrange x.device.type (Work.rearrange y.toView x.toView)

/-- A copy of `source` in row-major order without gaps. -/
def rearranged (source : Handle) : Action Tensor := do
  let x ← source.defined
  let y ← allocateTensor x.shape x.kind x.device
  rearrangeInto (some y) (some x)
  return y

/-- Writes the sum of `left` and `right` to `target`. -/
def addInto (target left right : Handle) : Action Unit := do
  requireSameDevice target [left, right]
  let c ← target.defined
  let a ← left.defined
  let b ← right.defined
  require (c.shape == a.shape && c.shape == b.shape) (.operation .addShapes)
  launch .add c.device.type (Work.add c.toView a.toView b.toView)

/-- The sum of `left` and `right` in the kind of `left`. -/
def added (left right : Handle) : Action Tensor := do
  let a ← left.defined
  let c ← allocateTensor a.shape a.kind a.device
  addInto (some c) left right
  return c

/-- Writes `x` divided by the single number of `scale` to `target`. -/
def staticQuantizeInto (target x scale : Handle) : Action Unit := do
  requireSameDevice target [x, scale]
  let q ← target.defined
  let x ← x.defined
  let s ← scale.defined
  require (q.shape == x.shape) (.operation (.staticQuantizeShapes q.shape x.shape))
  launch .staticQuantize x.device.type (Work.staticQuantize q.toView x.toView s.toView)

/-- Quantizes the rows of `x` in groups of `size` columns into `target` and `scales`. -/
def groupQuantizeInto (target scales x : Handle) (size : UInt64) : Action Unit := do
  requireSameDevice target [scales, x]
  let q ← target.defined
  let s ← scales.defined
  let x ← x.defined
  require (x.rank == 2 && q.shape == x.shape)
    (.operation (.groupQuantizeShapes x.toView q.toView))
  require (size != 0) (.operation .emptyGroups)
  launch .groupQuantize x.device.type (Work.groupQuantize q.toView s.toView x.toView size)

/-- Writes the product of two scaled matrices to `target`. -/
def scaledProductInto (target left leftScale right rightScale : Handle) : Action Unit := do
  requireSameDevice target [left, leftScale, right, rightScale]
  let c ← target.defined
  let a ← left.defined
  let aScale ← leftScale.defined
  let b ← right.defined
  let bScale ← rightScale.defined
  launch .scaledProduct c.device.type
    (Work.scaledProduct c.toView a.toView aScale.toView b.toView bScale.toView)

/-- Writes the product of two matrices with scales for each block to `target`. -/
def blockScaledProductInto (target left leftScale right rightScale : Handle)
    (blockRows blockColumns : UInt64) : Action Unit := do
  requireSameDevice target [left, leftScale, right, rightScale]
  require (blockRows != 0 && blockColumns != 0) (.operation .emptyBlocks)
  let c ← target.defined
  let a ← left.defined
  let aScale ← leftScale.defined
  let b ← right.defined
  let bScale ← rightScale.defined
  launch .blockScaledProduct c.device.type
    (Work.blockScaledProduct c.toView a.toView aScale.toView b.toView bScale.toView
      blockRows blockColumns)

def repackInto (target weight : Handle) : Action Unit := do
  requireSameDevice target [weight]
  let packed ← target.defined
  let w ← weight.defined
  launch .repack w.device.type (Work.repack packed.toView w.toView)

def repacked (weight : Handle) : Action Tensor := do
  let w ← weight.defined
  require (w.rank == 2) (.operation (.repackRank w.toView))
  let packed ← allocateTensor (packedShape (w.extent 0) (w.extent 1)) .i32 w.device
  repackInto (some packed) weight
  return packed

/-- Writes the product of `left` with a packed weight to `target`. -/
def packedProductInto (target left packed scale : Handle) (outFeatures inFeatures : UInt64) :
    Action Unit := do
  requireSameDevice target [left, packed, scale]
  let c ← target.defined
  let a ← left.defined
  let b ← packed.defined
  let s ← scale.defined
  launch .packedProduct c.device.type
    (Work.packedProduct c.toView a.toView b.toView s.toView outFeatures inFeatures)

end QuantLinear
