import QuantLinear.Fault

/-!
Views of views: other shapes, orders of axes, strides and ranges over the same bytes.
-/

namespace QuantLinear

/-- A range of positions on one axis. -/
structure Slice where
  axis : UInt64
  start : UInt64
  length : UInt64
deriving DecidableEq, Repr

namespace View

/-- The extent of an axis that must exist. -/
def extentAt (v : View) (axis : Nat) : Except Fault UInt64 := do
  require (axis < v.rank) (.tensor .noSuchAxis)
  return v.extent axis

/-- The stride of an axis that must exist. -/
def strideAt (v : View) (axis : Nat) : Except Fault Int64 := do
  require (axis < v.rank) (.tensor .noSuchAxis)
  return v.stride axis

/-- The same elements in row-major order under another shape. -/
def reshape (v : View) (shape : Shape) : Except Fault View := do
  require (shape.numel == v.numel) (.tensor (.viewCount v.shape shape))
  require v.isContiguous (.tensor (.viewLayout v))
  return { v with shape := shape, strides := shape.contiguousStrides }

/-- The same elements with axis `i` taken from axis `order[i]`. -/
def permute (v : View) (order : List UInt64) : Except Fault View := do
  let axes := order.map UInt64.toNat
  require (axes.length == v.rank) (.tensor .permuteRank)
  require (axes.all (· < v.rank) && decide axes.Nodup) (.tensor .permuteOrder)
  return { v with shape := axes.map v.extent, strides := axes.map v.stride }

/-- Any extents and strides from the same first element. -/
def restride (v : View) (shape : Shape) (strides : Strides) : Except Fault View := do
  require (shape.length == strides.length) (.tensor .rankMismatch)
  return { v with shape := shape, strides := strides }

/-- One slice of `source` taken from `v`, a view with the strides of `source`. The bound is checked
against `source`, and the offset wraps. -/
def narrowAxis (source v : View) (slice : Slice) : Except Fault View := do
  let axis := slice.axis.toNat
  require (axis < source.rank && slice.start + slice.length ≤ source.extent axis)
    (.tensor (.sliceOutside source))
  return { v with
    shape := v.shape.set axis slice.length
    offset := v.offset
      + slice.start * (source.stride axis).toUInt64 * UInt64.ofNat source.kind.size }

/-- The positions of a view within the given slices. -/
def narrow (v : View) (slices : List Slice) : Except Fault View :=
  slices.foldlM (narrowAxis v) v

end View

end QuantLinear
