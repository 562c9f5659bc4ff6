import QuantLinear.Machine
import QuantLinear.Element.Number
import QuantLinear.Tensor.Reshape

/-!
New tensors: fresh storages, and views under handles of their own.
-/

namespace QuantLinear

/-- A dense view of a whole storage in row-major order. -/
def View.dense (kind : ElementKind) (shape : Shape) (storage : Nat) (device : Device) : View :=
  ⟨kind, shape, shape.contiguousStrides, storage, 0, device⟩

/-- The bytes of `count` equal words. -/
def repeatedWord (kind : ElementKind) (count word : Nat) : List UInt8 :=
  (List.replicate count (bytesOfWord kind.size word)).flatten

/-- Adds a storage and views it. -/
def place (bytes : List UInt8) (viewOf : Nat → View) : Action Tensor := do
  let storage := (← get).memory.next
  modifyMemory (·.allocate bytes.toArray)
  share (viewOf storage)

/-- A tensor of zero bytes in a storage from the device's runtime, as many as its elements take modulo
the word. No request fails for its size. Left out is that the built-in runtime asks for whole lines of 64
bytes, at least one: it adds 63 to the request, which wraps above `2 ^ 64 - 64`, and keeps the request as
the size. -/
def allocateTensor (shape : Shape) (kind : ElementKind) (device : Device) : Action Tensor := do
  let _ ← requireRuntime device
  let count := (shape.numel * UInt64.ofNat kind.size).toNat
  place (List.replicate count 0) (View.dense kind shape · device)

/-- Stores one word in all elements of a tensor over a whole storage. As many are written as the tensor
counts, each into the bytes after the one before it; the bytes that were asked for may be fewer, where
their number wraps. Off the host the elements are laid out aside, in as many bytes, and arrive in one
upload. -/
def fillTensor (tensor : Tensor) (word : Nat) : Action Unit := do
  let count := tensor.numel.toNat
  require (count * tensor.kind.size ≤ tensor.byteCount.toNat) (.tensor .overrun)
  unless tensor.device.isHost do countUpload (← requireRuntime tensor.device)
  modifyMemory (·.writeBytes tensor.storage 0 (repeatedWord tensor.kind count word))

/-- A tensor whose elements all store `value`. -/
def filledTensor (shape : Shape) (value : Binary64) (kind : ElementKind) (device : Device) :
    Action Tensor := do
  let word := (← kind.encodable).encodeDouble value
  let tensor ← allocateTensor shape kind device
  fillTensor tensor word
  return tensor

def zeroTensor (shape : Shape) (kind : ElementKind) (device : Device) : Action Tensor :=
  filledTensor shape ⟨0⟩ kind device

def oneTensor (shape : Shape) (kind : ElementKind) (device : Device) : Action Tensor :=
  filledTensor shape ⟨0x3FF0000000000000⟩ kind device

/-- A tensor with the given words in row-major order, in a storage from the device's runtime. -/
def tensorOfWords (shape : Shape) (kind : ElementKind) (device : Device) (words : List Nat) :
    Action Tensor := do
  let _ ← requireRuntime device
  place (words.flatMap (bytesOfWord kind.size)) (View.dense kind shape · device)

/-- A tensor over bytes that belong to the caller; it takes no runtime. -/
def wrapWords (shape : Shape) (strides : Strides) (kind : ElementKind) (device : Device)
    (words : List Nat) : Action Tensor := do
  require (shape.length == strides.length) (.tensor .rankMismatch)
  place (words.flatMap (bytesOfWord kind.size)) fun storage =>
    ⟨kind, shape, strides, storage, 0, device⟩

/-- Applies a change of view to the tensor behind a handle. -/
def viewThrough (source : Handle) (change : View → Except Fault View) : Action Tensor := do
  let tensor ← source.defined
  share (← change tensor.toView)

end QuantLinear
