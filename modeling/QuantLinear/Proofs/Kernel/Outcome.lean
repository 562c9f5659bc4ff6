import QuantLinear.Kernel.Quantize
import QuantLinear.Kernel.Packed
import QuantLinear.Kernel.Elementwise

/-!
The kernels as functions of the memory.

Each function asks for the kinds of the operands once, and then says what the loops of its kernel
make of the memory.
-/

namespace QuantLinear

namespace Kernel

/-- Copies each element of `source` to the same position of `target`. -/
def runRearrange (target source : View) (mem : Memory) : Memory :=
  (Shape.indices source.shape).foldl
    (fun mem index =>
      mem.copyBytes target.storage (target.address index) source.storage (source.address index)
        source.kind.size)
    mem

/-- Adds `left` and `right` position by position. -/
def runAdd (target left right : View) (mem : Memory) : Except Fault Memory :=
  match target.kind, left.kind, right.kind with
  | .float targetKind, .float leftKind, .float rightKind =>
    pure ((Shape.indices target.shape).foldl
      (fun mem index =>
        let sum := mem.number left leftKind index + mem.number right rightKind index
        mem.setNumber target targetKind index sum)
      mem)
  | _, _, _ => throw (.kernelFailure Kernel.add.label .notFloating)

/-- The largest magnitude among the columns of a row, passing over NaNs. -/
def rowPeak (mem : Memory) (x : View) (kind : FloatKind) (row lo hi : Nat) : Binary32 :=
  forRange lo hi 0 fun peak column => peak.max (mem.number x kind [row, column]).abs

/-- Multiplies each number of `x` by the reciprocal of the single number of `scale`. -/
def runStaticQuantize (target x scale : View) (mem : Memory) : Except Fault Memory := do
  let fail := Fault.kernelFailure Kernel.staticQuantize.label
  require (target.kind == .float .f8) (fail .outputNotF8)
  require (scale.numel == 1) (fail .scaleNotSingle)
  let scaleKind ← scale.kind.decodable
  let factor := scaleKind.decode (mem.wordAt scale (scale.addressAt 0))
  require ((0 : Binary32).lt factor && factor.isFinite) (fail .scaleNotPositive)
  let reciprocal := Binary32.one / factor
  if x.shape.contains 0 then pure mem
  else
    let kind ← x.kind.decodable
    pure ((Shape.indices x.shape).foldl
      (fun mem index => mem.setNumber target .f8 index (mem.number x kind index * reciprocal))
      mem)

/-- Measures one group, writes its scale and divides its numbers by it. -/
def quantizeGroup (target scales x : View) (scaleKind kind : FloatKind) (size : UInt64)
    (row : Nat) (mem : Memory) (group : Nat) : Memory :=
  let (lo, hi) := chunkRange (x.extent 1) size (UInt64.ofNat group)
  let scale := groupScale (rowPeak mem x kind row lo hi)
  forRange lo hi (mem.setNumber scales scaleKind [row, group] scale) fun mem column =>
    mem.setNumber target .f8 [row, column] (mem.number x kind [row, column] / scale)

/-- Quantizes each row of `x` in groups of `size` columns. -/
def runGroupQuantize (target scales x : View) (size : UInt64) (mem : Memory) :
    Except Fault Memory := do
  let fail := Fault.kernelFailure Kernel.groupQuantize.label
  require (target.kind == .float .f8) (fail .outputNotF8)
  let rows := x.extent 0
  let groups := ceilDiv (x.extent 1) size
  require (scales.rank == 2 && scales.extent 0 == rows && scales.extent 1 == groups)
    (fail (.groupScaleShape scales.shape rows groups))
  if rows = 0 ∨ groups = 0 then pure mem
  else
    let kind ← x.kind.decodable
    let scaleKind ← scales.kind.encodable
    pure (forRange 0 rows.toNat mem fun mem row =>
      forRange 0 groups.toNat mem (quantizeGroup target scales x scaleKind kind size row))

/-- Multiplies `left` with one scale or one for each row by `right` with one scale or one for
each column. -/
def runScaledProduct (target left leftScale right rightScale : View) (mem : Memory) :
    Except Fault Memory := do
  let fail := Fault.kernelFailure Kernel.scaledProduct.label
  requireLayouts .scaledProduct left right
  requireExtents .scaledProduct target left right
  let rows := left.extent 0
  let depth := left.extent 1
  let columns := right.extent 1
  require (leftScale.isContiguous && (leftScale.numel == 1 || leftScale.numel == rows))
    (fail .leftScaleCount)
  require (rightScale.isContiguous && (rightScale.numel == 1 || rightScale.numel == columns))
    (fail .rightScaleCount)
  if rows = 0 then pure mem
  else
    let leftKind ← leftScale.kind.decodable
    if columns = 0 then pure mem
    else
      let rightKind ← rightScale.kind.decodable
      let targetKind ← target.kind.encodable
      let a := mem.numbers left .f8
      let b := mem.numbers right .f8
      pure (forRange 0 rows.toNat mem fun mem row =>
        let rowScale := mem.scaleNumber leftScale leftKind row
        forRange 0 columns.toNat mem fun mem column =>
          mem.setNumber target targetKind [row, column]
            (scaledEntry depth.toNat (a.entry row) (b.entry · column) rowScale
              (mem.scaleNumber rightScale rightKind column)))

/-- Multiplies `left` with a scale for each row and block of its columns by `right` with a scale
for each block of its columns and rows. -/
def runBlockScaledProduct (target left leftScale right rightScale : View)
    (blockRows blockColumns : UInt64) (mem : Memory) : Except Fault Memory := do
  let fail := Fault.kernelFailure Kernel.blockScaledProduct.label
  requireLayouts .blockScaledProduct left right
  requireExtents .blockScaledProduct target left right
  let rows := left.extent 0
  let depth := left.extent 1
  let columns := right.extent 1
  let depthBlocks := ceilDiv depth blockColumns
  let columnBlocks := ceilDiv columns blockRows
  require (leftScale.isContiguous && leftScale.shape == [rows, depthBlocks])
    (fail (.leftBlockScale leftScale))
  require (rightScale.isContiguous && rightScale.shape == [columnBlocks, depthBlocks])
    (fail (.rightBlockScale rightScale))
  let a := mem.numbers left .f8
  let b := mem.numbers right .f8
  let aScale ← mem.decodeMatrix leftScale
  let bScale ← mem.decodeMatrix rightScale
  if rows = 0 ∨ columns = 0 then pure mem
  else
    let targetKind ← target.kind.encodable
    pure (forRange 0 rows.toNat mem fun mem row =>
      forRange 0 columns.toNat mem fun mem column =>
        mem.setNumber target targetKind [row, column]
          (blockEntry depth blockColumns depthBlocks.toNat (a.entry row) (b.entry · column)
            (aScale.entry row) (bScale.entry (column / blockRows.toNat))))

/-- Lays the bytes of a weight out in tiles. -/
def runRepack (target weight : View) (mem : Memory) : Except Fault Memory := do
  let fail := Fault.kernelFailure Kernel.repack.label
  require (weight.kind == .float .f8 && weight.rank == 2) (fail .weightNotF8Matrix)
  let rows := weight.extent 0
  let columns := weight.extent 1
  require (rows % packTile == 0 && columns % packTile == 0) (fail (.weightNotTiled weight.shape))
  require (target.kind == .i32 && target.isContiguous && target.shape == packedShape rows columns)
    (fail (.packedTarget (packedShape rows columns)))
  if columns = 0 then pure mem
  else pure (forRange 0 rows.toNat mem fun mem row =>
    forRange 0 columns.toNat mem fun mem column =>
      mem.setByte target.storage
        (target.byteAddress (packedPosition rows (UInt64.ofNat row) (UInt64.ofNat column)))
        (mem.byte weight.storage (weight.address [row, column])))

/-- Multiplies `left` by the packed weight with a scale for each output feature. -/
def runPackedProduct (target left packed scale : View) (outFeatures inFeatures : UInt64)
    (mem : Memory) : Except Fault Memory := do
  let fail := Fault.kernelFailure Kernel.packedProduct.label
  require left.kind.isWideFloating (fail .leftNotWide)
  let leftKind ← left.kind.decodable
  require (left.isRowMajor && left.extent 1 == inFeatures) (fail (.leftNotRowMajorWide left))
  require (packed.kind == .i32 && packed.isContiguous
    && packed.shape == packedShape outFeatures inFeatures)
    (fail (.packedOperand outFeatures inFeatures))
  require (scale.isContiguous && scale.numel == outFeatures) (fail .packedScale)
  let rows := left.extent 0
  require (target.rank == 2 && target.extent 0 == rows && target.extent 1 == outFeatures)
    (fail .outputShape)
  if outFeatures = 0 then pure mem
  else
    let scaleKind ← scale.kind.decodable
    if rows = 0 then pure mem
    else
      let targetKind ← target.kind.encodable
      let weight := Matrix.tabulate outFeatures.toNat inFeatures.toNat fun row column =>
        packedNumber mem packed outFeatures row column * mem.scaleNumber scale scaleKind row
      let a := mem.numbers left leftKind
      pure (forRange 0 rows.toNat mem fun mem row =>
        forRange 0 outFeatures.toNat mem fun mem column =>
          mem.setNumber target targetKind [row, column]
            (packedEntry inFeatures.toNat (a.entry row) (weight.entry column)))

end Kernel

end QuantLinear
