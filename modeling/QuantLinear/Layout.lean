import QuantLinear.Tensor.Transfer

/-!
Operands in the layouts that the kernels take.

Wherever strides can express the layout the operand is a view of the given tensor; only else is it
copied.
-/

namespace QuantLinear

/-- A tensor made ready for a kernel. -/
structure Operand where
  tensor : Tensor
  /-- Whether the layout took a copy. -/
  copied : Bool
deriving DecidableEq, Repr

namespace View

/-- The stride of the one axis that the given axes fold into, from the outermost to the innermost.
`none` inside stands for axes of extent one, which fold anywhere; `none` outside says that the axes
do not fold. -/
def foldedStride : Shape → Strides → Option (Option (Int64 × Int64))
  | extent :: shape, stride :: strides => do
    let inner ← foldedStride shape strides
    if extent = 1 then some inner
    else
      match inner with
      | none => some (some (stride, stride * extent.toInt64))
      | some (row, expected) =>
        if stride = expected then some (some (row, stride * extent.toInt64)) else none
  | _, _ => some none

/-- The distance between the rows of a tensor read as a matrix with the innermost axis as its
columns, where such a reading exists. -/
def rowStride? (v : View) : Option Int64 := do
  let last := v.rank - 1
  let columns := v.extent last
  if 1 < columns && v.stride last != 1 then none
  else
    let folded ← foldedStride (v.shape.take last) (v.strides.take last)
    match folded with
    | some (row, _) => some row
    | none => some columns.toInt64

end View

/-- An activation as a row-major matrix of rows along its innermost axis. -/
def normalizedActivation (activation : Handle) : Action Operand := do
  let x ← activation.defined
  require (x.rank != 0) (.layer (.activationRank x.toView))
  let columns := x.extent (x.rank - 1)
  let batch := if columns = 0 then 0 else x.numel / columns
  match x.toView.rowStride? with
  | some row => return ⟨← share (← x.toView.restride [batch, columns] [row, 1]), false⟩
  | none =>
    let dense ← contiguousTensor x
    return ⟨← share (← dense.toView.reshape [batch, columns]), true⟩

/-- A weight, given with its output features as rows, as a column-major matrix. -/
def normalizedWeight (weight : Handle) : Action Operand := do
  let w ← weight.defined
  require (w.rank == 2) (.layer (.weightRank w.toView))
  if w.extent 1 ≤ 1 ∨ w.stride 1 = 1 then
    return ⟨← share (← w.toView.permute [1, 0]), false⟩
  else
    let dense ← contiguousTensor w
    return ⟨← share (← dense.toView.permute [1, 0]), true⟩

/-- A scale without gaps. -/
def normalizedScale (scale : Handle) : Action Operand := do
  let s ← scale.defined
  if s.isContiguous then return ⟨s, false⟩
  else return ⟨← contiguousTensor s, true⟩

end QuantLinear
