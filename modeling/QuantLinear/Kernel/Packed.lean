import QuantLinear.Kernel.Product

/-!
Packed weights: square tiles of a weight laid out one after another, and the product with them.

A packed weight has a row for each tile row along the input features. A row holds the tiles of all
output features, each tile with the bytes of one output feature side by side, and four bytes share
a word.
-/

namespace QuantLinear

/-- The extent of a tile on both axes. -/
def packTile : UInt64 := 16

/-- The shape of the packed form of a weight with the given extents. -/
def packedShape (outFeatures inFeatures : UInt64) : Shape :=
  [inFeatures / packTile, outFeatures * packTile / 4]

/-- The byte of the packed form that holds the weight at a row and a column. -/
def packedPosition (outFeatures row column : UInt64) : UInt64 :=
  column / packTile * (outFeatures * packTile)
    + (row / packTile * packTile * packTile + row % packTile * packTile + column % packTile)

namespace View

/-- The address of a byte counted from the first element of a view; addresses wrap. -/
def byteAddress (v : View) (position : UInt64) : Nat := (v.offset + position).toNat

end View

namespace Kernel

/-- An entry of the product with a packed weight: the weight comes with its scale applied. -/
def packedEntry {α : Type} [Zero α] [Add α] [Mul α] (depth : Nat) (left weight : Nat → α) : α :=
  accumulate 0 0 depth fun p => left p * weight p

/-- The number at a row and a column of a packed weight. -/
def packedNumber (mem : Memory) (packed : View) (outFeatures : UInt64) (row column : Nat) :
    Binary32 :=
  let position := packedPosition outFeatures (UInt64.ofNat row) (UInt64.ofNat column)
  FloatKind.f8.decode (mem.byte packed.storage (packed.byteAddress position)).toNat

end Kernel

namespace Work

/-- Lays the bytes of a weight out in tiles. -/
def repack (target weight : View) : Work Unit := do
  let fail := Fault.kernelFailure Kernel.repack.label
  require (weight.kind == .float .f8 && weight.rank == 2) (fail .weightNotF8Matrix)
  let rows := weight.extent 0
  let columns := weight.extent 1
  require (rows % packTile == 0 && columns % packTile == 0) (fail (.weightNotTiled weight.shape))
  require (target.kind == .i32 && target.isContiguous && target.shape == packedShape rows columns)
    (fail (.packedTarget (packedShape rows columns)))
  eachCell rows.toNat columns.toNat fun row column =>
    modify fun mem =>
      mem.setByte target.storage
        (target.byteAddress (packedPosition rows (UInt64.ofNat row) (UInt64.ofNat column)))
        (mem.byte weight.storage (weight.address [row, column]))

/-- The numbers of a packed weight with the scale of each output feature applied. -/
def packedNumbers (packed scale : View) (outFeatures inFeatures : UInt64) :
    Work (Matrix Binary32) := do
  if outFeatures = 0 then return .tabulate 0 0 fun _ _ => 0
  let scaleKind ← scale.kind.decodable
  let mem ← get
  return .tabulate outFeatures.toNat inFeatures.toNat fun row column =>
    Kernel.packedNumber mem packed outFeatures row column * mem.scaleNumber scale scaleKind row

/-- Multiplies `left` by the packed weight with a scale for each output feature. -/
def packedProduct (target left packed scale : View) (outFeatures inFeatures : UInt64) :
    Work Unit := do
  let fail := Fault.kernelFailure Kernel.packedProduct.label
  require left.kind.isWideFloating (fail .leftNotWide)
  let leftKind ← left.kind.decodable
  require (left.isRowMajor && left.extent 1 == inFeatures) (fail (.leftNotRowMajorWide left))
  require (packed.kind == .i32 && packed.isContiguous
    && packed.shape == packedShape outFeatures inFeatures)
    (fail (.packedOperand outFeatures inFeatures))
  require (scale.isContiguous && scale.numel == outFeatures) (fail .packedScale)
  let rows := left.extent 0
  require (target.rank == 2 && target.extent 0 == rows && target.extent 1 == outFeatures)
    (fail .outputShape)
  let weight ← packedNumbers packed scale outFeatures inFeatures
  let a := (← get).numbers left leftKind
  eachCell rows.toNat outFeatures.toNat fun row column =>
    setNumber target [row, column]
      (Kernel.packedEntry inFeatures.toNat (a.entry row) (weight.entry column))

end Work

end QuantLinear
