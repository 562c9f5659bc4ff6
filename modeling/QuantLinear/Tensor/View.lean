import QuantLinear.Element.Kind
import QuantLinear.Device
import QuantLinear.Shape

/-!
Views: which bytes of a storage hold the elements of a tensor, and in which order.

A tensor is a view with an identity. Several tensors may view one storage.
-/

namespace QuantLinear

/-- The bytes of a storage that make up a tensor. -/
structure View where
  kind : ElementKind
  shape : Shape
  strides : Strides
  storage : Nat
  /-- The distance of the first element from the start of the storage, in bytes. -/
  offset : UInt64
  device : Device
deriving DecidableEq, Repr

/-- A view together with the handle that tells it from other tensors with the same view. -/
structure Tensor extends View where
  handle : Nat
deriving DecidableEq, Repr

namespace View

def rank (v : View) : Nat := v.shape.length

/-- The extent of an axis; zero where there is none. -/
def extent (v : View) (axis : Nat) : UInt64 := v.shape.getD axis 0

def stride (v : View) (axis : Nat) : Int64 := v.strides.getD axis 0

def numel (v : View) : UInt64 := v.shape.numel

/-- The number of bytes of all elements as a 64-bit word. -/
def byteCount (v : View) : UInt64 := v.numel * UInt64.ofNat v.kind.size

def isContiguous (v : View) : Bool := Shape.isContiguous v.shape v.strides

/-- The byte at a signed distance in elements from the first one; addresses wrap. -/
def addressAt (v : View) (elements : Int) : Nat :=
  ((v.offset.toNat + elements * v.kind.size) % UInt64.size).toNat

/-- The first byte of the element at a position. -/
def address (v : View) (index : Index) : Nat := v.addressAt (elementOffset v.strides index)

/-- Whether a matrix has neighbouring columns side by side. -/
def isRowMajor (v : View) : Bool := v.rank == 2 && (v.extent 1 ≤ 1 || v.stride 1 == 1)

/-- Whether a matrix has neighbouring rows side by side. -/
def isColumnMajor (v : View) : Bool := v.rank == 2 && (v.extent 0 ≤ 1 || v.stride 0 == 1)

/-- Whether two views have their first elements at the same byte. -/
def sameStart (a b : View) : Bool := a.storage == b.storage && a.offset == b.offset

/-- The shape, the strides, the element kind and the device in one line. -/
def describe (v : View) : String :=
  "Tensor(shape=" ++ Shape.describe v.shape ++ ", strides=" ++ bracketed (v.strides.map toString)
    ++ ", dtype=" ++ v.kind.label ++ ", device=" ++ v.device.describe ++ ")"

end View

end QuantLinear
