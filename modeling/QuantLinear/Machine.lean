import QuantLinear.Work
import QuantLinear.Layer.State

/-!
The state that tensors and layers live in, and the actions on it.

A machine holds the storages, the runtimes and kernels of its devices, the layers, and the reports
on scales that were made up. An action that fails keeps what it did before it failed. Each action ends
before the next one starts; what threads do to a machine at the same time is left out.
-/

namespace QuantLinear

/-- Who allocates and copies for a type of device. -/
inductive Runtime where
  | builtin
  /-- A registered runtime that works in host memory and counts uploads. -/
  | hosted (serial : Nat)
deriving DecidableEq, Repr

/-- What the entry of a kernel table does when it is launched. -/
inductive Launcher where
  | reference
  /-- Counts the call and runs the kernel. -/
  | counting
  | failing
deriving DecidableEq, Repr

/-- What happens with the reports on made-up scales. -/
inductive Observer where
  | silent
  | collecting
  /-- Takes reports and fails on a report that it refuses after those it took before. -/
  | refusing (refuses : List Placeholder → Placeholder → Bool)

namespace Observer

/-- Takes a report and fails. -/
def failing : Observer := .refusing fun _ _ => true

end Observer

abbrev KernelTable := Kernel → DeviceType → Option Launcher

namespace KernelTable

/-- The kernels run on the host and nowhere else. -/
def standard : KernelTable := fun _ type => if type = .cpu then some .reference else none

/-- The entry of a kernel for a type of device; unknown types have none. -/
def find? (table : KernelTable) (kernel : Kernel) (type : DeviceType) : Option Launcher :=
  if type = .unknown then none else table kernel type

def set (table : KernelTable) (kernel : Kernel) (type : DeviceType) (entry : Option Launcher) :
    KernelTable :=
  fun k t => if k = kernel ∧ t = type then entry else table k t

/-- The table after an entry is registered; an existing entry stays unless it may be replaced. -/
def register (table : KernelTable) (kernel : Kernel) (type : DeviceType)
    (entry : Option Launcher) (replace : Bool) : KernelTable :=
  if replace || (table kernel type).isNone then table.set kernel type entry else table

/-- The table after an entry is registered for all types of devices. -/
def registerAll (table : KernelTable) (kernel : Kernel) (entry : Option Launcher)
    (replace : Bool) : KernelTable :=
  [DeviceType.cpu, .cuda].foldl (fun table type => table.register kernel type entry replace) table

end KernelTable

structure Machine where
  memory : Memory
  handles : Nat
  runtimes : DeviceType → Option Runtime
  kernels : KernelTable
  /-- The calls that the counting entries of each kernel have seen. -/
  calls : Kernel → Nat
  /-- The uploads that each runtime has seen, in the order they were made. -/
  uploads : Array Nat
  observer : Observer
  reports : List Placeholder
  /-- The number of scales made up for all layers. It is a natural number, so it never starts again at
  zero, as a word would after `2 ^ 64` scales; the counts of calls, of uploads and of each layer are
  alike. -/
  placeholders : Nat
  /-- Every layer that was ever built. -/
  layers : Array Layer

namespace Machine

/-- A machine with the built-in runtime and kernels of the host. -/
def initial : Machine where
  memory := .empty
  handles := 0
  runtimes := fun type => if type = .cpu then some .builtin else none
  kernels := .standard
  calls := fun _ => 0
  uploads := #[]
  observer := .silent
  reports := []
  placeholders := 0
  layers := #[]

end Machine

abbrev Action := EStateM Fault Machine

namespace Action

/-- A computation that needs no machine. -/
def ofExcept {α : Type} : Except Fault α → Action α
  | .ok value => pure value
  | .error fault => throw fault

instance : MonadLift (Except Fault) Action := ⟨ofExcept⟩

end Action

abbrev Handle := Option Tensor

namespace Handle

/-- Whether two handles are of one tensor; undefined handles are alike. -/
def same (a b : Handle) : Bool := a.map (·.handle) == b.map (·.handle)

def defined : Handle → Except Fault Tensor
  | some tensor => pure tensor
  | none => throw (.tensor .undefined)

end Handle

def requireRuntime (device : Device) : Action Runtime := do
  let machine ← get
  match machine.runtimes device.type with
  | some runtime => pure runtime
  | none => throw (.device (.noRuntime device))

def hasRuntime (type : DeviceType) : Action Bool := do
  return ((← get).runtimes type).isSome

/-- Makes a runtime that has seen no uploads. -/
def makeRuntime : Action Runtime := do
  let machine ← get
  set { machine with uploads := machine.uploads.push 0 }
  return .hosted machine.uploads.size

/-- Registers a new runtime for a type of device, or removes the one it has. The new runtime is made
first, and it stays the latest one where the type refuses it. -/
def registerRuntime (type : DeviceType) (remove : Bool) : Action Unit := do
  let runtime ← if remove then pure none else some <$> makeRuntime
  require (type != .unknown) (.device .notRegistrable)
  modify fun machine =>
    { machine with runtimes := fun t => if t = type then runtime else machine.runtimes t }

/-- Whether the runtime of a device is the one made last. -/
def hasLatestRuntime (device : Device) : Action Bool := do
  let runtime ← requireRuntime device
  let machine ← get
  return 0 < machine.uploads.size && runtime == .hosted (machine.uploads.size - 1)

/-- The uploads that the runtime made last has seen. -/
def latestUploads : Action Nat := do
  return (← get).uploads.back?.getD 0

def modifyMemory (change : Memory → Memory) : Action Unit :=
  modify fun machine => { machine with memory := change machine.memory }

def countUpload : Runtime → Action Unit
  | .builtin => pure ()
  | .hosted serial =>
    modify fun machine => { machine with uploads := machine.uploads.modify serial (· + 1) }

def changeKernels (change : KernelTable → KernelTable) : Action Unit :=
  modify fun machine => { machine with kernels := change machine.kernels }

/-- Sets what happens with reports from now on. -/
def setObserver (observer : Observer) : Action Unit :=
  modify fun machine => { machine with observer := observer }

def takeReports : Action (List Placeholder) := do
  let machine ← get
  set { machine with reports := [] }
  return machine.reports

/-- Gives a view a handle of its own. -/
def share (v : View) : Action Tensor := do
  let machine ← get
  set { machine with handles := machine.handles + 1 }
  return { v with handle := machine.handles }

/-- Does work on the storages of the machine; what it stored before a failure stays. -/
def perform {α : Type} (work : Work α) : Action α := fun machine =>
  match work machine.memory with
  | .ok answer memory => .ok answer { machine with memory := memory }
  | .error fault memory => .error fault { machine with memory := memory }

/-- Runs a kernel through the entry that the table has for a type of device. -/
def launch (kernel : Kernel) (type : DeviceType) (work : Work Unit) : Action Unit := do
  match (← get).kernels.find? kernel type with
  | none => throw (.operation (.noKernel kernel type))
  | some .failing => throw (.kernelFailure kernel.label .injected)
  | some entry =>
    if entry = .counting then
      modify fun machine =>
        { machine with
          calls := fun k => if k = kernel then machine.calls k + 1 else machine.calls k }
    perform work

end QuantLinear
