import QuantLinear.Kernel.Operand

/-!
Kernels that multiply matrices of eight bit numbers with their scales.

The entries of a product are written for any type with zero, addition and multiplication. A kernel
takes them over single precision; over exact numbers they are the sums of products they look like.
-/

namespace QuantLinear

/-- `start + term lo + … + term (hi - 1)`, added from the left. -/
def accumulate {α : Type} [Add α] (start : α) (lo hi : Nat) (term : Nat → α) : α :=
  forRange lo hi start fun total i => total + term i

namespace Kernel

/-- An entry of a product whose operands have one scale for the row and one for the column. -/
def scaledEntry {α : Type} [Zero α] [Add α] [Mul α] (depth : Nat) (left right : Nat → α)
    (rowScale columnScale : α) : α :=
  accumulate 0 0 depth (fun p => left p * right p) * rowScale * columnScale

/-- An entry of a product whose operands have scales for each block of the shared axis. -/
def blockEntry {α : Type} [Zero α] [Add α] [Mul α] (depth size : UInt64) (blocks : Nat)
    (left right leftScale rightScale : Nat → α) : α :=
  accumulate 0 0 blocks fun block =>
    let (lo, hi) := chunkRange depth size (UInt64.ofNat block)
    accumulate 0 lo hi (fun p => left p * right p) * leftScale block * rightScale block

/-- Refuses factors that are not eight bit matrices with the shared axis innermost. -/
def requireLayouts (kernel : Kernel) (left right : View) : Except Fault Unit := do
  let fail := Fault.kernelFailure kernel.label
  require (left.kind == .float .f8 && right.kind == .float .f8) (fail .operandsNotF8)
  require left.isRowMajor (fail (.leftNotRowMajor left))
  require right.isColumnMajor (fail (.rightNotColumnMajor right))

/-- Refuses factors and a target whose extents do not fit. -/
def requireExtents (kernel : Kernel) (target left right : View) : Except Fault Unit := do
  let fail := Fault.kernelFailure kernel.label
  require (right.extent 0 == left.extent 1) (fail .innerExtents)
  require (target.rank == 2 && target.extent 0 == left.extent 0
    && target.extent 1 == right.extent 1) (fail .outputShape)

end Kernel

namespace Work

/-- Fills a row of `target` with entries that take a scale for the row and one for each column. -/
def scaledRow (target leftScale rightScale : View) (columns row : Nat)
    (entry : Nat → Binary32 → Binary32 → Binary32) : Work Unit := do
  let rowScale ← scaleNumber leftScale row
  each 0 columns fun column => do
    let columnScale ← scaleNumber rightScale column
    setNumber target [row, column] (entry column rowScale columnScale)

/-- Multiplies `left` with one scale or one for each row by `right` with one scale or one for
each column. -/
def scaledProduct (target left leftScale right rightScale : View) : Work Unit := do
  let fail := Fault.kernelFailure Kernel.scaledProduct.label
  Kernel.requireLayouts .scaledProduct left right
  Kernel.requireExtents .scaledProduct target left right
  let rows := left.extent 0
  let depth := left.extent 1
  let columns := right.extent 1
  require (leftScale.isContiguous && (leftScale.numel == 1 || leftScale.numel == rows))
    (fail .leftScaleCount)
  require (rightScale.isContiguous && (rightScale.numel == 1 || rightScale.numel == columns))
    (fail .rightScaleCount)
  let a := (← get).numbers left .f8
  let b := (← get).numbers right .f8
  -- a row without columns only asks for its scale, and all such rows get one answer
  let rowsAsked := if columns = 0 then min rows 1 else rows
  each 0 rowsAsked.toNat fun row =>
    scaledRow target leftScale rightScale columns.toNat row fun column =>
      Kernel.scaledEntry depth.toNat (a.entry row) (b.entry · column)

/-- Multiplies `left` with a scale for each row and block of its columns by `right` with a scale
for each block of its columns and rows. -/
def blockScaledProduct (target left leftScale right rightScale : View)
    (blockRows blockColumns : UInt64) : Work Unit := do
  let fail := Fault.kernelFailure Kernel.blockScaledProduct.label
  Kernel.requireLayouts .blockScaledProduct left right
  Kernel.requireExtents .blockScaledProduct target left right
  let rows := left.extent 0
  let depth := left.extent 1
  let columns := right.extent 1
  let depthBlocks := ceilDiv depth blockColumns
  let columnBlocks := ceilDiv columns blockRows
  require (leftScale.isContiguous && leftScale.shape == [rows, depthBlocks])
    (fail (.leftBlockScale leftScale))
  require (rightScale.isContiguous && rightScale.shape == [columnBlocks, depthBlocks])
    (fail (.rightBlockScale rightScale))
  let a := (← get).numbers left .f8
  let b := (← get).numbers right .f8
  let aScale ← (← get).decodeMatrix leftScale
  let bScale ← (← get).decodeMatrix rightScale
  eachCell rows.toNat columns.toNat fun row column =>
    setNumber target [row, column]
      (Kernel.blockEntry depth blockColumns depthBlocks.toNat (a.entry row) (b.entry · column)
        (aScale.entry row) (bScale.entry (column / blockRows.toNat)))

end Work

end QuantLinear
