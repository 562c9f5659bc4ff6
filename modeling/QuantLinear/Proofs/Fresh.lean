import QuantLinear.Tensor.Create
import QuantLinear.Proofs.Words
import QuantLinear.Proofs.Work

/-!
New tensors, and the launch of kernels.

A new tensor is dense in a storage of its own (`Fresh`), and nothing that was there before changes.
A launch changes what its kernel writes, and on a host with its built-in kernels it fails only where
the kernel itself does.
-/

namespace QuantLinear

/-- The host has its built-in runtime and kernels. -/
structure Machine.Builtin (machine : Machine) : Prop where
  runtime : machine.runtimes .cpu = some .builtin
  kernels : ∀ kernel, machine.kernels kernel .cpu = some .reference

/-- A device of the host is served by the built-in runtime and kernels. -/
structure Machine.Serves (machine : Machine) (device : Device) : Prop where
  builtin : machine.Builtin
  host : device.isHost = true

namespace Machine.Serves

variable {machine : Machine} {device : Device}

private theorem type_eq (serves : machine.Serves device) : device.type = .cpu := by
  simpa [Device.isHost] using serves.host

theorem runtime (serves : machine.Serves device) :
    machine.runtimes device.type = some .builtin := by
  rw [serves.type_eq]
  exact serves.builtin.runtime

theorem kernel (serves : machine.Serves device) (kernel : Kernel) :
    machine.kernels.find? kernel device.type = some .reference := by
  rw [serves.type_eq, KernelTable.find?, if_neg (by decide)]
  exact serves.builtin.kernels kernel

theorem later {changed : List Nat} {after : Machine} (serves : machine.Serves device)
    (followed : machine.Follows changed after) : after.Serves device where
  builtin := {
    runtime := by rw [followed.runtimes]; exact serves.builtin.runtime
    kernels := fun kernel => by rw [followed.kernels]; exact serves.builtin.kernels kernel }
  host := serves.host

end Machine.Serves

open QuantLinear.Action

/-- A device has a runtime, or it is refused. -/
private theorem ends_requireRuntime_found (device : Device) (machine : Machine) :
    (requireRuntime device).Ends machine
      (fun _ after => (machine.runtimes device.type).isSome = true ∧ after = machine)
      (fun _ after => after = machine ∧ (machine.runtimes device.type).isSome = false) := by
  simp only [requireRuntime, ends_bind, ends_get]
  cases found : machine.runtimes device.type with
  | some runtime => exact ⟨rfl, rfl⟩
  | none => exact ⟨rfl, rfl⟩

theorem Machine.not_serves {machine : Machine} {device : Device}
    (none : (machine.runtimes device.type).isSome = false) : ¬machine.Serves device := fun serves => by
  rw [serves.runtime] at none
  cases none

theorem ends_requireRuntime (device : Device) (machine : Machine) :
    (requireRuntime device).Ends machine (fun _ after => after = machine)
      (fun _ after => machine.Follows [] after ∧ ¬machine.Serves device) := by
  refine (ends_requireRuntime_found device machine).mono (fun _ _ found => found.2) ?_
  rintro _ after ⟨rfl, none⟩
  exact ⟨.refl _ _, Machine.not_serves none⟩

theorem ends_countUpload (runtime : Runtime) (machine : Machine) :
    (countUpload runtime).Ends machine
      (fun _ after => machine.Follows [] after ∧ after.memory = machine.memory)
      (fun _ _ => False) := by
  cases runtime with
  | builtin => exact ⟨.refl _ _, rfl⟩
  | hosted serial => exact ⟨⟨rfl, rfl, rfl, rfl, rfl, rfl, .refl _ _⟩, rfl⟩

/-- A launch leaves behind what its kernel wrote, and nothing where the kernel failed. -/
theorem ends_launch (changed : List Nat) (kernel : Kernel) (device : Device) {work : Work Unit}
    {outcome : Except Fault Memory} (machine : Machine)
    (settles : work.Settles machine.memory outcome)
    (writes : ∀ mem, outcome = .ok mem → machine.memory.Evolves changed mem) :
    (launch kernel device.type work).Ends machine
      (fun _ after => machine.Follows changed after ∧ outcome = .ok after.memory)
      (fun fault after => machine.Follows [] after ∧
        (machine.Serves device → outcome = .error fault)) := by
  -- a counted call and one that is not differ in the count alone
  have started : ∀ calls, (perform work).Ends { machine with calls := calls }
      (fun _ after => machine.Follows changed after ∧ outcome = .ok after.memory)
      (fun fault after => machine.Follows [] after ∧
        (machine.Serves device → outcome = .error fault)) := by
    intro calls
    cases outcome with
    | ok mem =>
      simp only [Ends, perform, show work machine.memory = .ok () mem from settles]
      exact ⟨⟨rfl, rfl, rfl, rfl, rfl, rfl, writes mem rfl⟩, trivial⟩
    | error fault =>
      simp only [Ends, perform, show work machine.memory = .error fault machine.memory from settles]
      exact ⟨⟨rfl, rfl, rfl, rfl, rfl, rfl, .refl _ _⟩, fun _ => trivial⟩
  simp only [launch, ends_bind, ends_get]
  cases found : machine.kernels.find? kernel device.type with
  | none =>
    refine ⟨.refl _ _, fun serves => ?_⟩
    cases (serves.kernel kernel).symm.trans found
  | some launcher => cases launcher with
    | reference => exact started machine.calls
    | counting => exact started _
    | failing =>
      refine ⟨.refl _ _, fun serves => ?_⟩
      cases (serves.kernel kernel).symm.trans found

/-- A tensor that was made between two machines. -/
structure Fresh (before : Machine) (kind : ElementKind) (shape : Shape) (device : Device)
    (tensor : Tensor) (after : Machine) : Prop where
  follows : before.Follows [] after
  view : tensor.toView = View.dense kind shape before.memory.next device
  stored : tensor.storage < after.memory.next
  /-- The storage has the bytes of the request, which wraps. -/
  size : after.memory.size tensor.storage = shape.count * kind.size % 2 ^ 64

namespace Fresh

variable {before after : Machine} {kind : ElementKind} {shape : Shape} {device : Device}
  {tensor : Tensor}

theorem has (fresh : Fresh before kind shape device tensor after) :
    after.memory.Has tensor.toView where
  rank := by rw [fresh.view]; exact Shape.length_contiguousStrides shape
  stored := fresh.stored

theorem size_of_lt (fresh : Fresh before kind shape device tensor after)
    (fits : shape.count * kind.size < 2 ^ 64) :
    after.memory.size tensor.storage = shape.count * kind.size := by
  rw [fresh.size, Nat.mod_eq_of_lt fits]

theorem isContiguous (fresh : Fresh before kind shape device tensor after) :
    tensor.isContiguous = true := by
  rw [fresh.view]
  exact Shape.isContiguous_contiguousStrides shape

theorem storage (fresh : Fresh before kind shape device tensor after) :
    tensor.storage = before.memory.next := by rw [fresh.view]; rfl

theorem kind_eq (fresh : Fresh before kind shape device tensor after) : tensor.kind = kind := by
  rw [fresh.view]; rfl

theorem shape_eq (fresh : Fresh before kind shape device tensor after) : tensor.shape = shape := by
  rw [fresh.view]; rfl

theorem device_eq (fresh : Fresh before kind shape device tensor after) :
    tensor.device = device := by rw [fresh.view]; rfl

theorem dense (fresh : Fresh before kind shape device tensor after)
    (fits : shape.count * kind.size < 2 ^ 64) : after.memory.Dense tensor.toView where
  offset := by rw [fresh.view]; rfl
  strides := by rw [fresh.view]; rfl
  fits := by rwa [fresh.shape_eq, fresh.kind_eq]
  room := by rw [fresh.shape_eq, fresh.kind_eq, fresh.size_of_lt fits]
  stored := fresh.stored

/-- A new tensor stays new while it alone is written. -/
theorem write {later : Machine} (fresh : Fresh before kind shape device tensor after)
    (followed : after.Follows [tensor.storage] later) :
    Fresh before kind shape device tensor later where
  follows := fresh.follows.thenFresh followed (by simp [fresh.storage])
  view := fresh.view
  stored := Nat.lt_of_lt_of_le fresh.stored followed.memory.grows
  size := by rw [followed.memory.size _ fresh.stored, fresh.size]

/-- A new tensor stays new while nothing is written. -/
theorem keep {later : Machine} (fresh : Fresh before kind shape device tensor after)
    (followed : after.Follows [] later) : Fresh before kind shape device tensor later where
  follows := fresh.follows.trans followed
  view := fresh.view
  stored := Nat.lt_of_lt_of_le fresh.stored followed.memory.grows
  size := by rw [followed.memory.size _ fresh.stored, fresh.size]

/-- Work that leaves the storages as they are may come first. -/
theorem since {earlier : Machine} (fresh : Fresh before kind shape device tensor after)
    (followed : earlier.Follows [] before) (same : before.memory = earlier.memory) :
    Fresh earlier kind shape device tensor after where
  follows := followed.trans fresh.follows
  view := by rw [← same]; exact fresh.view
  stored := fresh.stored
  size := fresh.size

/-- A tensor that was there before lies elsewhere. -/
theorem apart (fresh : Fresh before kind shape device tensor after) {v : View}
    (there : before.memory.Has v) : v.storage ≠ tensor.storage := by
  rw [fresh.storage]
  exact Nat.ne_of_lt there.stored

end Fresh

theorem toNat_byteCount_mod (shape : Shape) (kind : ElementKind) :
    (shape.numel * UInt64.ofNat kind.size).toNat = shape.count * kind.size % 2 ^ 64 := by
  rw [UInt64.toNat_mul, kind.toNat_size, Shape.toNat_numel, Nat.mod_mul_mod]

theorem toNat_byteCount {shape : Shape} {kind : ElementKind}
    (fits : shape.count * kind.size < 2 ^ 64) :
    (shape.numel * UInt64.ofNat kind.size).toNat = shape.count * kind.size := by
  rw [toNat_byteCount_mod, Nat.mod_eq_of_lt fits]

/-- A new tensor has as many bytes as were asked for, and they are zero. -/
theorem ends_allocateTensor_found (shape : Shape) (kind : ElementKind) (device : Device)
    (machine : Machine) :
    (allocateTensor shape kind device).Ends machine
      (fun tensor after => (machine.runtimes device.type).isSome = true ∧
        Fresh machine kind shape device tensor after ∧
        after.memory =
          machine.memory.allocate (Array.replicate (shape.count * kind.size % 2 ^ 64) 0))
      (fun _ after => after = machine ∧ (machine.runtimes device.type).isSome = false) := by
  simp only [allocateTensor, place, modifyMemory, share, ends_bind, ends_get, ends_modify, ends_set,
    ends_pure]
  refine (ends_requireRuntime_found device machine).mono ?_ fun _ _ failed => failed
  rintro _ after ⟨found, rfl⟩
  rw [List.toArray_replicate, toNat_byteCount_mod]
  refine ⟨found, ⟨⟨rfl, rfl, rfl, rfl, rfl, rfl, Memory.evolves_allocate ..⟩, rfl, ?_, ?_⟩, rfl⟩
  · rw [Memory.next_allocate]
    exact Nat.lt_succ_self _
  · rw [View.dense, Memory.size, Memory.contents_allocate, if_pos rfl, Array.size_replicate]

theorem ends_allocateTensor (shape : Shape) (kind : ElementKind) (device : Device)
    (machine : Machine) :
    (allocateTensor shape kind device).Ends machine
      (fun tensor after => Fresh machine kind shape device tensor after)
      (fun _ after => machine.Follows [] after ∧ ¬machine.Serves device) := by
  refine (ends_allocateTensor_found shape kind device machine).mono (fun _ _ made => made.2.1) ?_
  rintro _ after ⟨rfl, none⟩
  exact ⟨.refl _ _, Machine.not_serves none⟩

private theorem getElem?_flatten_replicate (bytes : List UInt8) {count copy i : Nat}
    (there : copy < count) (inside : i < bytes.length) :
    (List.replicate count bytes).flatten[copy * bytes.length + i]? = bytes[i]? := by
  -- by induction on the copy: the first one holds the byte, or the others do
  induction copy generalizing count with
  | zero =>
    obtain ⟨rest, rfl⟩ := Nat.exists_eq_succ_of_ne_zero (Nat.ne_of_gt there)
    rw [List.replicate_succ, List.flatten_cons, Nat.zero_mul, Nat.zero_add,
      List.getElem?_append_left inside]
  | succ copy ih =>
    obtain ⟨rest, rfl⟩ := Nat.exists_eq_succ_of_ne_zero (Nat.ne_zero_of_lt there)
    have past : bytes.length ≤ (copy + 1) * bytes.length + i := by
      rw [Nat.succ_mul]
      omega
    have left : (copy + 1) * bytes.length + i - bytes.length = copy * bytes.length + i := by
      rw [Nat.succ_mul]
      omega
    rw [List.replicate_succ, List.flatten_cons, List.getElem?_append_right past, left]
    exact ih (Nat.lt_of_succ_lt_succ there)

private theorem address_dense (kind : ElementKind) (shape : Shape) (storage : Nat) (device : Device)
    {place : Nat} (inside : place < shape.count) :
    (View.dense kind shape storage device).address (shape.indexAt place) =
      place * kind.size % 2 ^ 64 := by
  have found := (View.dense kind shape storage device).address_indexAt
    (Shape.length_contiguousStrides shape) (Shape.isContiguous_contiguousStrides shape) inside
  simpa only [View.dense, UInt64.toNat_zero, Nat.zero_add] using found

private theorem readBytes_repeatedWord {mem : Memory} {storage count copy : Nat} (kind : ElementKind)
    (word : Nat) (room : count * kind.size ≤ mem.size storage) (there : copy < count) :
    (mem.writeBytes storage 0 (repeatedWord kind count word)).readBytes storage (copy * kind.size)
      kind.size = bytesOfWord kind.size word := by
  apply List.ext_getElem
  · simp
  · intro i _ bound
    rw [length_bytesOfWord] at bound
    have found := getElem?_flatten_replicate (bytesOfWord kind.size word) there
      (by rwa [length_bytesOfWord])
    rw [length_bytesOfWord] at found
    have below := Nat.mul_le_mul_right kind.size (Nat.succ_le_of_lt there)
    rw [Nat.succ_mul] at below
    have inside : copy * kind.size + i < mem.size storage := by omega
    simp only [Memory.readBytes, List.getElem_map, List.getElem_range, Memory.byte_writeBytes]
    rw [if_pos ⟨trivial, Nat.zero_le _, inside⟩, Nat.sub_zero, List.getD_eq_getElem?_getD, repeatedWord,
      found]
    simp [bound]

/-- Every element of a tensor filled with one word reads as this word; a place whose address wraps
shares it with an earlier one. -/
private theorem load_repeatedWord {mem : Memory} {kind : ElementKind} {shape : Shape} {device : Device}
    {storage word : Nat} (fits : word < 256 ^ kind.size)
    (room : shape.numel.toNat * kind.size ≤ mem.size storage) {place : Nat}
    (below : place < shape.numel.toNat) :
    (mem.writeBytes storage 0 (repeatedWord kind shape.numel.toNat word)).load
      (View.dense kind shape storage device) (shape.indexAt place) = word := by
  have inside : place < shape.count := by
    rw [Shape.toNat_numel] at below
    exact Nat.lt_of_lt_of_le below (Nat.mod_le _ _)
  -- sizes divide the word, so an address that wraps falls on the start of an earlier copy
  obtain ⟨words, whole⟩ := kind.size_dvd
  have address : place * kind.size % 2 ^ 64 = place % words * kind.size := by
    rw [whole, Nat.mul_comm place, Nat.mul_mod_mul_left, Nat.mul_comm]
  have early : place % words < shape.numel.toNat := Nat.lt_of_le_of_lt (Nat.mod_le _ _) below
  rw [Memory.load, Memory.wordAt, address_dense kind shape storage device inside, address]
  rw [show (View.dense kind shape storage device).storage = storage from rfl,
    show (View.dense kind shape storage device).kind = kind from rfl,
    readBytes_repeatedWord kind word room early, wordOfBytes_bytesOfWord, Nat.mod_eq_of_lt fits]

/-- A tensor of floating kind whose elements all store one number, as far as they are counted. -/
def Stores (value : Binary64) (tensor : Tensor) (mem : Memory) : Prop :=
  ∃ kind, tensor.kind = .float kind ∧ (kind.encodeDouble value < 256 ^ kind.size →
    ∀ place < tensor.numel.toNat,
      mem.load tensor.toView (tensor.shape.indexAt place) = kind.encodeDouble value)

theorem View.toNat_byteCount (v : View) :
    v.byteCount.toNat = v.numel.toNat * v.kind.size % 2 ^ 64 := by
  rw [byteCount, UInt64.toNat_mul, v.kind.toNat_size]

/-- Filling writes the bytes of all elements, or it stops where they are more than were asked for. -/
private theorem ends_fillTensor (tensor : Tensor) (word : Nat) (machine : Machine) :
    (fillTensor tensor word).Ends machine
      (fun _ after => machine.Follows [tensor.storage] after ∧
        tensor.numel.toNat * tensor.kind.size < 2 ^ 64 ∧
        after.memory = machine.memory.writeBytes tensor.storage 0
          (repeatedWord tensor.kind tensor.numel.toNat word))
      (fun fault after => machine.Follows [] after ∧
        ((machine.runtimes tensor.device.type).isSome = true →
          fault = .tensor .overrun ∧ 2 ^ 64 ≤ tensor.numel.toNat * tensor.kind.size)) := by
  have counted : tensor.numel.toNat * tensor.kind.size ≤ tensor.byteCount.toNat ↔
      tensor.numel.toNat * tensor.kind.size < 2 ^ 64 := by
    rw [View.toNat_byteCount]
    omega
  -- what an upload adds plays no part in the write
  have written {middle : Machine} (followed : machine.Follows [] middle)
      (same : middle.memory = machine.memory) :
      machine.Follows [tensor.storage] { middle with
        memory := middle.memory.writeBytes tensor.storage 0
          (repeatedWord tensor.kind tensor.numel.toNat word) } :=
    { followed with memory := by rw [same]; exact Memory.evolves_writeBytes .. }
  simp only [fillTensor, ends_bind, ends_require, decide_eq_true_eq, decide_eq_false_iff_not, counted,
    modifyMemory, ends_ite, ends_modify]
  refine ⟨fun fits => ⟨fun _ => ⟨written (.refl _ _) rfl, fits, trivial⟩, fun _ => ?_⟩,
    fun large => ⟨.refl _ _, fun _ => ⟨trivial, Nat.not_lt.mp large⟩⟩⟩
  apply (ends_requireRuntime_found tensor.device machine).mono
  · rintro runtime after ⟨-, rfl⟩
    refine (ends_countUpload runtime after).mono (fun _ middle counted => ?_) fun _ _ none => none.elim
    exact ⟨written counted.1 counted.2, fits, by rw [counted.2]⟩
  · rintro _ after ⟨rfl, none⟩
    exact ⟨.refl _ _, fun found => absurd (none.symm.trans found) Bool.false_ne_true⟩

/-- A filled tensor is new and stores one number everywhere. It is refused for its device, for its
kind, or because its elements are too many for their bytes. -/
theorem ends_filledTensor (shape : Shape) (value : Binary64) (kind : ElementKind) (device : Device)
    (machine : Machine) :
    (filledTensor shape value kind device).Ends machine
      (fun tensor after => ((machine.runtimes device.type).isSome = true ∧ kind.isFloating = true ∧
          shape.numel.toNat * kind.size < 2 ^ 64) ∧
        Fresh machine kind shape device tensor after ∧ Stores value tensor after.memory)
      (fun fault after => machine.Follows [] after ∧
        ((machine.runtimes device.type).isSome = true → kind.isFloating = true →
          fault = .tensor .overrun ∧ 2 ^ 64 ≤ shape.numel.toNat * kind.size)) := by
  simp only [filledTensor, ends_bind, ends_lift]
  cases kind with
  | float float =>
    refine ⟨fun found encodable => ?_, fun fault failed => by cases failed⟩
    cases encodable
    apply (ends_allocateTensor_found shape (.float float) device machine).mono
    · rintro tensor middle ⟨found, fresh, -⟩
      have numel : tensor.numel = shape.numel := by rw [View.numel, fresh.shape_eq]
      have runtimes := fresh.follows.runtimes
      apply (ends_fillTensor tensor _ middle).mono
      · rintro _ after ⟨followed, fits, memory⟩
        rw [numel, fresh.kind_eq] at fits
        refine ⟨⟨found, rfl, fits⟩, fresh.write followed, float, fresh.kind_eq, fun small place below => ?_⟩
        have room : shape.numel.toNat * (ElementKind.float float).size =
            middle.memory.size tensor.storage := by
          rw [fresh.size, ← Nat.mod_mul_mod, ← Shape.toNat_numel, Nat.mod_eq_of_lt fits]
        rw [numel] at below
        rw [fresh.storage] at room
        rw [memory, numel, fresh.kind_eq, fresh.storage, fresh.shape_eq, fresh.view]
        exact load_repeatedWord small room.le below
      · rintro _ after ⟨followed, large⟩
        rw [numel, fresh.kind_eq, fresh.device_eq, runtimes] at large
        exact ⟨fresh.follows.trans followed, fun there _ => large there⟩
    · rintro _ after ⟨rfl, none⟩
      exact ⟨.refl _ _, fun there => absurd (none.symm.trans there) Bool.false_ne_true⟩
  | _ =>
    refine ⟨?_, fun _ _ => ⟨.refl _ _, fun _ floating => by cases floating⟩⟩
    intro found encodable
    cases encodable

end QuantLinear
