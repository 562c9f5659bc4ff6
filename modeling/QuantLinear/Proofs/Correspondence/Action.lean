import QuantLinear.Tensor.Transfer
import QuantLinear.Proofs.Correspondence.Kernel

/-!
Work on tensors in two runs that part.

Machines of two runs that have the same runtimes and kernels and corresponding memories do the same
work on corresponding tensors: a tensor of one run is that of the other in the paired storage, under
a handle of its own.
-/

namespace QuantLinear

/-- The same tensor in another storage, under another handle. -/
def Tensor.moved (x : Tensor) (storage handle : Nat) : Tensor := ⟨x.toView.over storage, handle⟩

namespace Correspondence

/-- Machines of two runs. -/
structure Machines (c : Correspondence) (machine other : Machine) : Prop where
  runtimes : other.runtimes = machine.runtimes
  kernels : other.kernels = machine.kernels
  memory : c.Memories machine.memory other.memory

/-- Actions that keep machines in correspondence and fail for the same reasons. -/
def actions (c : Correspondence) : Bond Machine Machine := ⟨c.Machines, Fault.Alike⟩

/-- Tensors of two runs. -/
def Tensors (c : Correspondence) (x y : Tensor) : Prop :=
  ∃ storage handle, y = x.moved storage handle ∧ c.Pairs x.storage storage

/-- New tensors of two runs. -/
def News (c : Correspondence) (x y : Tensor) : Prop :=
  ∃ storage handle, y = x.moved storage handle ∧ c.left ≤ x.storage ∧
    x.storage + c.right = storage + c.left

theorem News.tensors {c : Correspondence} {x y : Tensor} (made : c.News x y) : c.Tensors x y := by
  obtain ⟨storage, handle, rfl, new, paired⟩ := made
  exact ⟨storage, handle, rfl, .inr ⟨new, paired⟩⟩

end Correspondence

/-- A machine that goes on from another one with its runtimes and kernels, where none of the storages
from before was written to. -/
structure Machine.Extends (start machine : Machine) : Prop where
  runtimes : machine.runtimes = start.runtimes
  kernels : machine.kernels = start.kernels
  memory : start.memory.Evolves [] machine.memory

namespace Machine

theorem Extends.refl (machine : Machine) : machine.Extends machine := ⟨rfl, rfl, .refl _ _⟩

theorem Extends.trans {start middle machine : Machine} (first : start.Extends middle)
    (second : middle.Extends machine) : start.Extends machine where
  runtimes := second.runtimes.trans first.runtimes
  kernels := second.kernels.trans first.kernels
  memory := first.memory.trans second.memory

theorem Follows.extends {start machine : Machine} (followed : start.Follows [] machine) :
    start.Extends machine := ⟨followed.runtimes, followed.kernels, followed.memory⟩

end Machine

namespace Correspondence

variable {start machine other : Machine}

theorem machines_since (first : start.Extends machine) (second : start.Extends other) :
    (since first.memory second.memory).Machines machine other where
  runtimes := second.runtimes.trans first.runtimes.symm
  kernels := second.kernels.trans first.kernels.symm
  memory := memories_since first.memory second.memory

/-- Tensors from before two runs parted are common to both. -/
theorem tensors_since (first : start.Extends machine) (second : start.Extends other) {x : Tensor}
    (there : x.storage < start.memory.next) : (since first.memory second.memory).Tensors x x :=
  ⟨x.storage, x.handle, rfl, .inl ⟨there, rfl⟩⟩

end Correspondence

open Correspondence

namespace Action

variable {c : Correspondence} {α : Type}

theorem parallel_same (computation : Except Fault α) :
    Parallel c.actions Eq (liftM computation : Action α) (liftM computation) :=
  parallel_lift (.same .refl computation)

theorem parallel_require (condition : Bool) {fault other : Fault}
    (alike : fault.Alike other := by exact ⟨rfl, rfl⟩) :
    Parallel c.actions (fun _ _ => True) (liftM (require condition fault) : Action Unit)
      (liftM (require condition other)) :=
  parallel_lift (.require alike)

theorem parallel_change {change other : Machine → Machine}
    (keeps : ∀ machine same, c.Machines machine same → c.Machines (change machine) (other same)) :
    Parallel c.actions (fun _ _ => True) (modify change : Action Unit) (modify other) :=
  parallel_modify keeps

private theorem parallel_modifyMemory {change other : Memory → Memory}
    (keeps : ∀ mem same, c.Memories mem same → c.Memories (change mem) (other same)) :
    Parallel c.actions (fun _ _ => True) (modifyMemory change) (modifyMemory other) :=
  parallel_change fun _ _ alike => ⟨alike.runtimes, alike.kernels, keeps _ _ alike.memory⟩

private theorem parallel_requireRuntime (device : Device) :
    Parallel c.actions Eq (requireRuntime device) (requireRuntime device) := by
  refine parallel_get.bind fun machine same alike => ?_
  rw [Machines.runtimes alike]
  cases machine.runtimes device.type with
  | some runtime => exact parallel_pure rfl
  | none => exact parallel_throw (.refl _)

private theorem parallel_countUpload (runtime : Runtime) :
    Parallel c.actions (fun _ _ => True) (countUpload runtime) (countUpload runtime) := by
  cases runtime with
  | builtin => exact parallel_pure trivial
  | hosted serial => exact parallel_change fun _ _ alike => ⟨alike.runtimes, alike.kernels, alike.memory⟩

theorem parallel_share {v : View} {storage : Nat} (paired : c.Pairs v.storage storage) :
    Parallel c.actions c.Tensors (share v) (share (v.over storage)) :=
  fun _ _ alike => ⟨⟨storage, _, rfl, paired⟩, alike.runtimes, alike.kernels, alike.memory⟩

private theorem parallel_place (bytes : List UInt8) (kind : ElementKind) (shape : Shape)
    (device : Device) :
    Parallel c.actions c.News (place bytes (View.dense kind shape · device))
      (place bytes (View.dense kind shape · device)) := by
  refine parallel_get.bind fun machine same alike => ?_
  obtain ⟨parted, next, -⟩ := Machines.memory alike
  refine (parallel_modifyMemory fun _ _ alike => alike.allocate _).bind fun _ _ _ => ?_
  exact fun _ _ alike => ⟨⟨same.memory.next, _, rfl, parted, next⟩, alike.runtimes, alike.kernels,
    alike.memory⟩

private theorem parallel_allocateNew (shape : Shape) (kind : ElementKind) (device : Device) :
    Parallel c.actions c.News (allocateTensor shape kind device)
      (allocateTensor shape kind device) :=
  (parallel_requireRuntime device).bind fun _ _ _ => parallel_place _ kind shape device

theorem parallel_allocateTensor (shape : Shape) (kind : ElementKind) (device : Device) :
    Parallel c.actions c.Tensors (allocateTensor shape kind device)
      (allocateTensor shape kind device) :=
  (parallel_allocateNew shape kind device).mono fun _ _ made => made.tensors

private theorem parallel_fillTensor {x y : Tensor} (alike : c.Tensors x y) (word : Nat) :
    Parallel c.actions (fun _ _ => True) (fillTensor x word) (fillTensor y word) := by
  obtain ⟨storage, handle, rfl, paired⟩ := alike
  have written (word : List UInt8) := parallel_modifyMemory (c := c)
    fun _ _ memories => memories.writeBytes paired 0 word
  refine (parallel_require _).bind fun _ _ _ => ?_
  refine parallel_ite (fun _ => written _) fun _ => ?_
  refine (parallel_requireRuntime x.device).bind_same fun runtime => ?_
  exact (parallel_countUpload runtime).bind fun _ _ _ => written _

theorem parallel_filledTensor (shape : Shape) (value : Binary64) (kind : ElementKind)
    (device : Device) :
    Parallel c.actions c.Tensors (filledTensor shape value kind device)
      (filledTensor shape value kind device) := by
  refine (parallel_same kind.encodable).bind_same fun encoding => ?_
  refine (parallel_allocateTensor shape kind device).bind fun _ _ made => ?_
  exact (parallel_fillTensor made _).bind fun _ _ _ => parallel_pure made

private theorem parallel_perform {work other : Work α}
    (parallel : Parallel c.work (fun _ _ => True) work other) :
    Parallel c.actions (fun _ _ => True) (perform work) (perform other) := by
  intro machine same alike
  have ended := parallel machine.memory same.memory alike.memory
  simp only [perform]
  cases ran : work machine.memory <;> cases again : other same.memory <;> rw [ran, again] at ended
  · exact ⟨trivial, alike.runtimes, alike.kernels, ended.2⟩
  · exact ended.elim
  · exact ended.elim
  · exact ⟨ended.1, alike.runtimes, alike.kernels, ended.2⟩

private theorem parallel_launch (kernel : Kernel) (type : DeviceType) {work other : Work Unit}
    (parallel : Parallel c.work (fun _ _ => True) work other) :
    Parallel c.actions (fun _ _ => True) (launch kernel type work) (launch kernel type other) := by
  refine parallel_get.bind fun machine same alike => ?_
  rw [Machines.kernels alike]
  cases machine.kernels.find? kernel type with
  | none => exact parallel_throw (.refl _)
  | some launcher =>
    cases launcher with
    | reference => exact parallel_perform parallel
    | counting =>
      have counted (machine same : Machine) (alike : c.Machines machine same) calls others :
          c.Machines { machine with calls := calls } { same with calls := others } :=
        ⟨alike.runtimes, alike.kernels, alike.memory⟩
      exact (parallel_change fun _ _ alike => counted _ _ alike _ _).bind fun _ _ _ =>
        parallel_perform parallel
    | failing => exact parallel_throw (.refl _)

section Operations

variable {target other source same : Tensor}

private theorem parallel_rearrangeInto (targets : c.Tensors target other)
    (sources : c.Tensors source same) :
    Parallel c.actions (fun _ _ => True) (rearrangeInto (some target) (some source))
      (rearrangeInto (some other) (some same)) := by
  obtain ⟨t, h, rfl, targets⟩ := targets
  obtain ⟨s, k, rfl, sources⟩ := sources
  simp only [rearrangeInto, bind_defined]
  refine (parallel_same (requireSameDevice (some target) [some source])).bind fun _ _ _ => ?_
  refine (parallel_require _).bind fun _ _ _ => ?_
  exact parallel_launch _ _ (Work.parallel_rearrange targets sources)

private theorem parallel_rearranged (sources : c.Tensors source same) :
    Parallel c.actions c.Tensors (rearranged (some source)) (rearranged (some same)) := by
  have like := sources
  obtain ⟨s, k, rfl, -⟩ := sources
  simp only [rearranged, bind_defined]
  refine (parallel_allocateTensor source.shape source.kind source.device).bind fun x y made => ?_
  refine (parallel_rearrangeInto made like).bind fun _ _ _ => ?_
  exact parallel_pure made

theorem parallel_contiguousTensor (sources : c.Tensors source same) :
    Parallel c.actions c.Tensors (contiguousTensor source) (contiguousTensor same) := by
  have like := sources
  obtain ⟨s, k, rfl, -⟩ := sources
  exact parallel_ite (fun _ => parallel_pure like) fun _ => parallel_rearranged like

theorem parallel_addInto {left right a b : Tensor} (targets : c.Tensors target other)
    (lefts : c.Tensors left a) (rights : c.Tensors right b) :
    Parallel c.actions (fun _ _ => True) (addInto (some target) (some left) (some right))
      (addInto (some other) (some a) (some b)) := by
  obtain ⟨t, h, rfl, targets⟩ := targets
  obtain ⟨l, i, rfl, lefts⟩ := lefts
  obtain ⟨r, j, rfl, rights⟩ := rights
  simp only [addInto, bind_defined]
  refine (parallel_same (requireSameDevice (some target) [some left, some right])).bind
    fun _ _ _ => ?_
  refine (parallel_require _).bind fun _ _ _ => ?_
  exact parallel_launch _ _ (Work.parallel_add targets lefts rights)

theorem parallel_staticQuantizeInto {x a scale b : Tensor} (targets : c.Tensors target other)
    (activations : c.Tensors x a) (scales : c.Tensors scale b) :
    Parallel c.actions (fun _ _ => True) (staticQuantizeInto (some target) (some x) (some scale))
      (staticQuantizeInto (some other) (some a) (some b)) := by
  obtain ⟨t, h, rfl, targets⟩ := targets
  obtain ⟨u, i, rfl, activations⟩ := activations
  obtain ⟨s, j, rfl, scales⟩ := scales
  simp only [staticQuantizeInto, bind_defined]
  refine (parallel_same (requireSameDevice (some target) [some x, some scale])).bind fun _ _ _ => ?_
  refine (parallel_require _).bind fun _ _ _ => ?_
  exact parallel_launch _ _ (Work.parallel_staticQuantize targets activations scales)

theorem parallel_groupQuantizeInto {scales b x a : Tensor} (targets : c.Tensors target other)
    (scaled : c.Tensors scales b) (activations : c.Tensors x a) (size : UInt64) :
    Parallel c.actions (fun _ _ => True)
      (groupQuantizeInto (some target) (some scales) (some x) size)
      (groupQuantizeInto (some other) (some b) (some a) size) := by
  obtain ⟨t, h, rfl, targets⟩ := targets
  obtain ⟨s, j, rfl, scaled⟩ := scaled
  obtain ⟨u, i, rfl, activations⟩ := activations
  simp only [groupQuantizeInto, bind_defined]
  refine (parallel_same (requireSameDevice (some target) [some scales, some x])).bind
    fun _ _ _ => ?_
  refine (parallel_require _).bind fun _ _ _ => ?_
  refine (parallel_require _).bind fun _ _ _ => ?_
  exact parallel_launch _ _ (Work.parallel_groupQuantize targets scaled activations size)

section Products

variable {left a leftScale d right b rightScale e : Tensor} (targets : c.Tensors target other)
  (lefts : c.Tensors left a) (leftScales : c.Tensors leftScale d) (rights : c.Tensors right b)
  (rightScales : c.Tensors rightScale e)

include targets lefts leftScales rights rightScales

theorem parallel_scaledProductInto :
    Parallel c.actions (fun _ _ => True)
      (scaledProductInto (some target) (some left) (some leftScale) (some right) (some rightScale))
      (scaledProductInto (some other) (some a) (some d) (some b) (some e)) := by
  obtain ⟨t, h, rfl, targets⟩ := targets
  obtain ⟨l, i, rfl, lefts⟩ := lefts
  obtain ⟨m, j, rfl, leftScales⟩ := leftScales
  obtain ⟨r, k, rfl, rights⟩ := rights
  obtain ⟨n, o, rfl, rightScales⟩ := rightScales
  simp only [scaledProductInto, bind_defined]
  refine (parallel_same (requireSameDevice (some target)
    [some left, some leftScale, some right, some rightScale])).bind fun _ _ _ => ?_
  exact parallel_launch _ _
    (Work.parallel_scaledProduct targets lefts leftScales rights rightScales)

theorem parallel_blockScaledProductInto (blockRows blockColumns : UInt64) :
    Parallel c.actions (fun _ _ => True)
      (blockScaledProductInto (some target) (some left) (some leftScale) (some right)
        (some rightScale) blockRows blockColumns)
      (blockScaledProductInto (some other) (some a) (some d) (some b) (some e) blockRows
        blockColumns) := by
  obtain ⟨t, h, rfl, targets⟩ := targets
  obtain ⟨l, i, rfl, lefts⟩ := lefts
  obtain ⟨m, j, rfl, leftScales⟩ := leftScales
  obtain ⟨r, k, rfl, rights⟩ := rights
  obtain ⟨n, o, rfl, rightScales⟩ := rightScales
  simp only [blockScaledProductInto, bind_defined]
  refine (parallel_same (requireSameDevice (some target)
    [some left, some leftScale, some right, some rightScale])).bind fun _ _ _ => ?_
  refine (parallel_require _).bind fun _ _ _ => ?_
  exact parallel_launch _ _ (Work.parallel_blockScaledProduct targets lefts leftScales rights
    rightScales blockRows blockColumns)

end Products

theorem parallel_packedProductInto {left a packed b scale d : Tensor}
    (targets : c.Tensors target other) (lefts : c.Tensors left a) (packs : c.Tensors packed b)
    (scales : c.Tensors scale d) (outFeatures inFeatures : UInt64) :
    Parallel c.actions (fun _ _ => True)
      (packedProductInto (some target) (some left) (some packed) (some scale) outFeatures inFeatures)
      (packedProductInto (some other) (some a) (some b) (some d) outFeatures inFeatures) := by
  obtain ⟨t, h, rfl, targets⟩ := targets
  obtain ⟨l, i, rfl, lefts⟩ := lefts
  obtain ⟨p, j, rfl, packs⟩ := packs
  obtain ⟨s, k, rfl, scales⟩ := scales
  simp only [packedProductInto, bind_defined]
  refine (parallel_same (requireSameDevice (some target)
    [some left, some packed, some scale])).bind fun _ _ _ => ?_
  exact parallel_launch _ _
    (Work.parallel_packedProduct targets lefts packs scales outFeatures inFeatures)

private theorem parallel_repackInto (targets : c.Tensors target other)
    (sources : c.Tensors source same) :
    Parallel c.actions (fun _ _ => True) (repackInto (some target) (some source))
      (repackInto (some other) (some same)) := by
  obtain ⟨t, h, rfl, targets⟩ := targets
  obtain ⟨s, k, rfl, sources⟩ := sources
  simp only [repackInto, bind_defined]
  refine (parallel_same (requireSameDevice (some target) [some source])).bind fun _ _ _ => ?_
  exact parallel_launch _ _ (Work.parallel_repack targets sources)

theorem parallel_repacked (sources : c.Tensors source same) :
    Parallel c.actions c.Tensors (repacked (some source)) (repacked (some same)) := by
  have like := sources
  obtain ⟨s, k, rfl, -⟩ := sources
  simp only [repacked, bind_defined]
  refine (parallel_require _).bind fun _ _ _ => ?_
  refine (parallel_allocateTensor (packedShape (source.extent 0) (source.extent 1)) .i32
    source.device).bind fun _ _ made => ?_
  exact (parallel_repackInto made like).bind fun _ _ _ => parallel_pure made

end Operations

section Copies

variable {target other source same : Tensor}

private theorem parallel_copyDense {target source : View} {t s : Nat}
    (targets : c.Pairs target.storage t)
    (sources : c.Pairs source.storage s) :
    Parallel c.actions (fun _ _ => True) (copyDense target source)
      (copyDense (target.over t) (source.over s)) :=
  parallel_modifyMemory fun _ _ alike => alike.copyBytes targets sources _ _ _

private theorem parallel_uploadDense {target source : View} {t s : Nat}
    (targets : c.Pairs target.storage t)
    (sources : c.Pairs source.storage s) :
    Parallel c.actions (fun _ _ => True) (uploadDense target source)
      (uploadDense (target.over t) (source.over s)) := by
  refine (parallel_requireRuntime target.device).bind_same fun runtime => ?_
  refine (parallel_countUpload runtime).bind fun _ _ _ => ?_
  exact parallel_copyDense targets sources

private theorem parallel_downloadDense {target source : View} {t s : Nat}
    (targets : c.Pairs target.storage t)
    (sources : c.Pairs source.storage s) :
    Parallel c.actions (fun _ _ => True) (downloadDense target source)
      (downloadDense (target.over t) (source.over s)) :=
  (parallel_requireRuntime source.device).bind fun _ _ _ => parallel_copyDense targets sources

/-- Copying across devices by a transfer that keeps machines in correspondence. -/
private theorem parallel_copyAcross {transfer : View → View → Action Unit}
    (transfers : ∀ {target source : View} {t s : Nat}, c.Pairs target.storage t →
      c.Pairs source.storage s → Parallel c.actions (fun _ _ => True) (transfer target source)
        (transfer (target.over t) (source.over s)))
    (targets : c.Tensors target other) (sources : c.Tensors source same) :
    Parallel c.actions (fun _ _ => True) (copyAcross transfer target source)
      (copyAcross transfer other same) := by
  have like := targets
  obtain ⟨t, h, rfl, targets⟩ := targets
  obtain ⟨s, k, rfl, sources⟩ := sources
  refine parallel_ite (fun _ => transfers targets sources) fun _ => ?_
  refine (parallel_allocateTensor target.shape target.kind target.device).bind fun x y made => ?_
  have dense := made
  obtain ⟨u, i, rfl, made⟩ := made
  refine (transfers made sources).bind fun _ _ _ => ?_
  exact parallel_rearrangeInto like dense

private theorem parallel_copyWithin (targets : c.Tensors target other)
    (sources : c.Tensors source same) :
    Parallel c.actions (fun _ _ => True) (copyWithin target source) (copyWithin other same) := by
  have like := targets
  have alike := sources
  obtain ⟨t, h, rfl, targets⟩ := targets
  obtain ⟨s, k, rfl, sources⟩ := sources
  refine parallel_ite (fun _ => ?_) fun _ => parallel_rearrangeInto like alike
  exact (parallel_requireRuntime target.device).bind fun _ _ _ => parallel_copyDense targets sources

private theorem parallel_copyBetween (targets : c.Tensors target other)
    (sources : c.Tensors source same) :
    Parallel c.actions (fun _ _ => True) (copyBetween target source) (copyBetween other same) := by
  have like := targets
  have alike := sources
  obtain ⟨t, h, rfl, -⟩ := targets
  obtain ⟨s, k, rfl, -⟩ := sources
  refine parallel_ite (fun _ => parallel_copyAcross parallel_downloadDense like alike) fun _ => ?_
  refine parallel_ite (fun _ => parallel_copyAcross parallel_uploadDense like alike) fun _ => ?_
  refine (parallel_allocateTensor source.shape source.kind .host).bind fun _ _ onHost => ?_
  refine (parallel_copyAcross parallel_downloadDense onHost alike).bind fun _ _ _ => ?_
  exact parallel_copyAcross parallel_uploadDense like onHost

private theorem parallel_copyInto (targets : c.Tensors target other) (sources : c.Tensors source same) :
    Parallel c.actions (fun _ _ => True) (copyInto (some target) (some source))
      (copyInto (some other) (some same)) := by
  have like := targets
  have alike := sources
  obtain ⟨t, h, rfl, -⟩ := targets
  obtain ⟨s, k, rfl, -⟩ := sources
  simp only [copyInto, bind_defined]
  refine (parallel_require _).bind fun _ _ _ => ?_
  refine (parallel_require _).bind fun _ _ _ => ?_
  refine parallel_ite (fun _ => parallel_copyWithin like alike) fun _ => ?_
  exact (parallel_contiguousTensor alike).bind fun _ _ dense => parallel_copyBetween like dense

/-- A tensor stays where it lies on the device, and a new one comes up where it does not. -/
theorem parallel_toDevice_new (sources : c.Tensors source same) (device : Device) :
    Parallel c.actions (fun x y => x = source ∧ y = same ∨ c.News x y) (toDevice source device)
      (toDevice same device) := by
  have alike := sources
  obtain ⟨s, k, rfl, -⟩ := sources
  refine parallel_ite (fun _ => parallel_pure (.inl ⟨rfl, rfl⟩)) fun _ => ?_
  refine (parallel_allocateNew source.shape source.kind device).bind fun _ _ made => ?_
  exact (parallel_copyInto made.tensors alike).bind fun _ _ _ => parallel_pure (.inr made)

theorem parallel_toDevice (sources : c.Tensors source same) (device : Device) :
    Parallel c.actions c.Tensors (toDevice source device) (toDevice same device) := by
  refine (parallel_toDevice_new sources device).mono fun x y arrived => ?_
  rcases arrived with ⟨rfl, rfl⟩ | made
  · exact sources
  · exact made.tensors

end Copies

end Action

end QuantLinear
