import QuantLinear.Operation

/-!
Copies of tensors: into row-major order, into another tensor, and onto another device.
-/

namespace QuantLinear

/-- The tensor itself where it is in row-major order without gaps, else such a copy. -/
def contiguousTensor (source : Tensor) : Action Tensor :=
  if source.isContiguous then pure source else rearranged (some source)

/-- Copies the bytes of `source` from its first element on to those of `target`. -/
def copyDense (target source : View) : Action Unit :=
  modifyMemory (·.copyBytes target.storage target.offset.toNat source.storage source.offset.toNat
    target.byteCount.toNat)

/-- Copies a dense source from the host to a device. -/
def uploadDense (target source : View) : Action Unit := do
  countUpload (← requireRuntime target.device)
  copyDense target source

/-- Copies a dense source from a device to the host. -/
def downloadDense (target source : View) : Action Unit := do
  let _ ← requireRuntime source.device
  copyDense target source

/-- Copies a dense source across devices by `transfer`, through a dense tensor on the target's
device where the target itself has gaps. -/
def copyAcross (transfer : View → View → Action Unit) (target source : Tensor) : Action Unit := do
  if target.isContiguous then transfer target.toView source.toView
  else
    let dense ← allocateTensor target.shape target.kind target.device
    transfer dense.toView source.toView
    rearrangeInto (some target) (some dense)

/-- Copies within a device. -/
def copyWithin (target source : Tensor) : Action Unit := do
  if target.isContiguous && source.isContiguous then
    let _ ← requireRuntime target.device
    copyDense target.toView source.toView
  else rearrangeInto (some target) (some source)

/-- Copies a dense source to another device. Between two devices off the host the elements pass
through the host. -/
def copyBetween (target source : Tensor) : Action Unit := do
  if target.device.isHost then copyAcross downloadDense target source
  else if source.device.isHost then copyAcross uploadDense target source
  else
    let onHost ← allocateTensor source.shape source.kind .host
    copyAcross downloadDense onHost source
    copyAcross uploadDense target onHost

/-- Copies the elements of `source` into `target`. -/
def copyInto (target source : Handle) : Action Unit := do
  let y ← target.defined
  let x ← source.defined
  require (x.shape == y.shape) (.tensor .copyShape)
  require (x.kind == y.kind) (.tensor .copyKind)
  if y.device = x.device then copyWithin y x
  else copyBetween y (← contiguousTensor x)

/-- The tensor itself where it lies on the device, else a copy there. -/
def toDevice (source : Tensor) (device : Device) : Action Tensor := do
  if device = source.device then return source
  let copy ← allocateTensor source.shape source.kind device
  copyInto (some copy) (some source)
  return copy

end QuantLinear
