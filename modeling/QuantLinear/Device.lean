/-!
Devices: a type and an index within the type.
-/

namespace QuantLinear

/-- The types of devices; an unknown type has no services and no kernels. -/
inductive DeviceType where
  | cpu
  | cuda
  | unknown
deriving DecidableEq, Repr, Inhabited

namespace DeviceType

def label : DeviceType → String
  | .cpu => "cpu"
  | .cuda => "cuda"
  | .unknown => "unknown"

end DeviceType

structure Device where
  type : DeviceType
  index : UInt64
deriving DecidableEq, Repr, Inhabited

namespace Device

def host : Device := ⟨.cpu, 0⟩

def describe (device : Device) : String := device.type.label ++ ":" ++ toString device.index

/-- Whether a device is one of the host, so that its memory can be filled in place. -/
def isHost (device : Device) : Bool := device.type == .cpu

end Device

end QuantLinear
