import QuantLinear.Proofs.Operations
import QuantLinear.Layout

/-!
Which kernels an action may find missing.

An action that launches kernels fails where the table has no entry for one of them. `Action.Seeks` says
which kernels, on which types of devices, an action may fail for in this way. Of its steps only a launch
looks for a kernel (`Action.seeks_launch`): the checks on operands report none as missing
(`MissesNone`), and neither does a kernel that runs.
-/

namespace QuantLinear

open QuantLinear.Action

/-- The kernel that a fault reports as missing. -/
def Fault.missing? : Fault → Option Kernel
  | .unsupportedVariant _ _ (.noKernel kernel) => some kernel
  | .operation (.noKernel kernel _) => some kernel
  | _ => none

/-- A computation whose faults report no missing kernel. -/
def MissesNone {α : Type} (computation : Except Fault α) : Prop :=
  ∀ fault, computation = .error fault → fault.missing? = none

section MissesNone

variable {α β : Type}

@[simp] theorem missesNone_pure (value : α) : MissesNone (pure value) := fun _ failed => by
  cases failed

@[simp] theorem missesNone_throw {fault : Fault} :
    MissesNone (throw fault : Except Fault α) ↔ fault.missing? = none :=
  ⟨fun misses => misses fault rfl, fun other _ failed => by cases failed; exact other⟩

@[simp] theorem missesNone_bind (computation : Except Fault α) (next : α → Except Fault β) :
    MissesNone (computation >>= next) ↔
      MissesNone computation ∧ ∀ value, computation = .ok value → MissesNone (next value) := by
  cases computation with
  | ok value =>
    constructor
    · exact fun misses => ⟨missesNone_pure value, fun _ same => Except.ok.inj same ▸ misses⟩
    · exact fun both => both.2 value rfl
  | error fault =>
    constructor
    · exact fun misses => ⟨missesNone_throw.mpr (misses fault rfl), fun _ same => by cases same⟩
    · exact fun both => missesNone_throw.mpr (both.1 fault rfl)

@[simp] theorem missesNone_map (f : α → β) (computation : Except Fault α) :
    MissesNone (f <$> computation) ↔ MissesNone computation := by
  cases computation with
  | ok value => simp [MissesNone, Functor.map, Except.map]
  | error fault => simp [MissesNone, Functor.map, Except.map]

@[simp] theorem missesNone_require (condition : Bool) (fault : Fault) :
    MissesNone (require condition fault) ↔ (condition = false → fault.missing? = none) := by
  cases condition with
  | true => simp [require]
  | false => simp [require]

@[simp] theorem missesNone_ite (condition : Prop) [Decidable condition] (yes no : Except Fault α) :
    MissesNone (if condition then yes else no) ↔
      (condition → MissesNone yes) ∧ (¬condition → MissesNone no) := by
  split <;> simp [*]

@[simp] theorem missesNone_decodable (kind : ElementKind) : MissesNone kind.decodable := by
  cases kind <;> simp [ElementKind.decodable, Fault.missing?]

@[simp] theorem missesNone_encodable (kind : ElementKind) : MissesNone kind.encodable := by
  cases kind <;> simp [ElementKind.encodable, Fault.missing?]

@[simp] theorem missesNone_defined (handle : Handle) : MissesNone handle.defined := by
  cases handle <;> simp [Handle.defined, Fault.missing?]

private theorem missesNone_requireSameDevice (first : Handle) (others : List Handle) :
    MissesNone (requireSameDevice first others) := by
  rw [requireSameDevice]
  induction others with
  | nil => exact missesNone_pure ()
  | cons other rest ih =>
    simp only [List.forM, missesNone_bind, missesNone_defined, missesNone_require, true_and]
    exact ⟨fun _ _ _ _ _ => rfl, fun _ _ => ih⟩

end MissesNone

namespace View

variable (v : View)

theorem missesNone_restride (shape : Shape) (strides : Strides) :
    MissesNone (v.restride shape strides) := by
  simp [restride, Fault.missing?]

theorem missesNone_reshape (shape : Shape) : MissesNone (v.reshape shape) := by
  simp [reshape, Fault.missing?]

private theorem missesNone_permute (order : List UInt64) : MissesNone (v.permute order) := by
  simp [permute, Fault.missing?]

end View

namespace Kernel

variable (target left right scale other : View) (mem : Memory)

private theorem missesNone_runAdd : MissesNone (runAdd target left right mem) := by
  unfold runAdd
  split <;> simp [Fault.missing?]

private theorem missesNone_runStaticQuantize :
    MissesNone (runStaticQuantize target left scale mem) := by
  simp [runStaticQuantize, Fault.missing?]

private theorem missesNone_runGroupQuantize (size : UInt64) :
    MissesNone (runGroupQuantize target scale left size mem) := by
  simp [runGroupQuantize, Fault.missing?]

private theorem missesNone_runScaledProduct :
    MissesNone (runScaledProduct target left scale right other mem) := by
  simp [runScaledProduct, requireLayouts, requireExtents, Fault.missing?]

private theorem missesNone_runBlockScaledProduct (rows columns : UInt64) :
    MissesNone (runBlockScaledProduct target left scale right other rows columns mem) := by
  simp [runBlockScaledProduct, requireLayouts, requireExtents, Memory.decodeMatrix, Fault.missing?]

private theorem missesNone_runRepack : MissesNone (runRepack target left mem) := by
  simp [runRepack, Fault.missing?]

private theorem missesNone_runPackedProduct (outFeatures inFeatures : UInt64) :
    MissesNone (runPackedProduct target left right scale outFeatures inFeatures mem) := by
  simp [runPackedProduct, Fault.missing?]

end Kernel

/-- Whether a fault reports a missing kernel, if at all, as the operation does that launches it: one
that is wanted on a type of device, and that the table lacks there. -/
def Fault.LacksOnly (wants : Kernel → DeviceType → Prop) (table : KernelTable) (fault : Fault) :
    Prop :=
  ∀ kernel, fault.missing? = some kernel →
    ∃ type, fault = .operation (.noKernel kernel type) ∧ wants kernel type ∧
      table.find? kernel type = none

theorem Fault.LacksOnly.of_none {wants : Kernel → DeviceType → Prop} {table : KernelTable}
    {fault : Fault} (other : fault.missing? = none) : fault.LacksOnly wants table :=
  fun kernel missing => by cases other.symm.trans missing

namespace Action

/-- Whether an action keeps the table of kernels, and reports only such kernels as missing that it is
expected to want and that the table lacks. -/
def Seeks {α : Type} (wants : Kernel → DeviceType → Prop) (action : Action α) : Prop :=
  ∀ machine, action.Ends machine (fun _ after => after.kernels = machine.kernels)
    fun fault _ => fault.LacksOnly wants machine.kernels

section Laws

variable {α β : Type} {wants : Kernel → DeviceType → Prop} {action : Action α}
  {next : α → Action β}

theorem seeks_pure (value : α) : Seeks wants (pure value) := fun _ => rfl

theorem seeks_throw {fault : Fault} (other : fault.missing? = none) :
    Seeks wants (throw fault : Action α) := fun _ => Fault.LacksOnly.of_none other

/-- What is known of an answer may be used to tell what the next action wants. -/
theorem Seeks.bind_of {known : α → Prop} (first : Seeks wants action)
    (answers : ∀ machine, action.Ends machine (fun answer _ => known answer) fun _ _ => True)
    (rest : ∀ answer, known answer → Seeks wants (next answer)) :
    Seeks wants (action >>= next) := fun machine => by
  rw [ends_bind]
  apply ((first machine).and (answers machine)).mono
  · rintro answer middle ⟨kept, holds⟩
    have later := rest answer holds middle
    rwa [kept] at later
  · exact fun _ _ both => both.1

theorem Seeks.bind (first : Seeks wants action) (rest : ∀ answer, Seeks wants (next answer)) :
    Seeks wants (action >>= next) :=
  first.bind_of (ends_somewhere action) fun answer _ => rest answer

theorem seeks_ite {condition : Prop} [Decidable condition] {yes no : Action α}
    (first : condition → Seeks wants yes) (second : ¬condition → Seeks wants no) :
    Seeks wants (if condition then yes else no) := by
  split
  · next holds => exact first holds
  · next fails => exact second fails

theorem seeks_lift {computation : Except Fault α} (misses : MissesNone computation) :
    Seeks wants (liftM computation : Action α) := fun machine => by
  rw [ends_lift]
  exact ⟨fun _ _ => rfl, fun fault failed => .of_none (misses fault failed)⟩

theorem seeks_require (condition : Bool) {fault : Fault} (other : fault.missing? = none) :
    Seeks wants (liftM (require condition fault) : Action Unit) :=
  seeks_lift ((missesNone_require condition fault).mpr fun _ => other)

private theorem seeks_defined (handle : Handle) : Seeks wants (liftM handle.defined : Action Tensor) :=
  seeks_lift (missesNone_defined handle)

private theorem seeks_requireSameDevice (first : Handle) (others : List Handle) :
    Seeks wants (liftM (requireSameDevice first others) : Action Unit) :=
  seeks_lift (missesNone_requireSameDevice first others)

theorem seeks_get : Seeks wants get := fun _ => rfl

theorem seeks_modify {change : Machine → Machine}
    (keeps : ∀ machine, (change machine).kernels = machine.kernels) :
    Seeks wants (modify change : Action Unit) := keeps

/-- A launch is the one place where a kernel is found missing. -/
theorem seeks_launch {kernel : Kernel} {type : DeviceType} {work : Work Unit}
    {outcome : Memory → Except Fault Memory} (wanted : wants kernel type)
    (settles : ∀ mem, work.Settles mem (outcome mem)) (misses : ∀ mem, MissesNone (outcome mem)) :
    Seeks wants (launch kernel type work) := fun machine => by
  have performed (calls : Kernel → Nat) : (perform work).Ends { machine with calls := calls }
      (fun _ after => after.kernels = machine.kernels)
      fun fault _ => fault.LacksOnly wants machine.kernels := by
    have settled := settles machine.memory
    have none := misses machine.memory
    cases ran : outcome machine.memory with
    | ok mem =>
      rw [ran] at settled
      simp only [Ends, perform, show work machine.memory = .ok () mem from settled]
    | error fault =>
      rw [ran] at settled none
      simp only [Ends, perform, show work machine.memory = .error fault machine.memory from settled]
      exact .of_none (none fault rfl)
  simp only [launch, ends_bind, ends_get]
  cases found : machine.kernels.find? kernel type with
  | none =>
    intro other missing
    cases missing
    exact ⟨type, rfl, wanted, found⟩
  | some launcher => cases launcher with
    | reference => exact performed machine.calls
    | counting => exact performed _
    | failing => exact .of_none rfl

end Laws

section Tensors

variable {wants : Kernel → DeviceType → Prop}

private theorem seeks_requireRuntime (device : Device) : Seeks wants (requireRuntime device) := by
  refine seeks_get.bind fun machine => ?_
  cases machine.runtimes device.type with
  | some runtime => exact seeks_pure runtime
  | none => exact seeks_throw rfl

private theorem seeks_countUpload (runtime : Runtime) : Seeks wants (countUpload runtime) := by
  cases runtime with
  | builtin => exact seeks_pure ()
  | hosted serial => exact seeks_modify fun _ => rfl

theorem seeks_share (v : View) : Seeks wants (share v) := fun _ => rfl

private theorem seeks_place (bytes : List UInt8) (viewOf : Nat → View) :
    Seeks wants (place bytes viewOf) :=
  fun _ => rfl

theorem seeks_allocateTensor (shape : Shape) (kind : ElementKind) (device : Device) :
    Seeks wants (allocateTensor shape kind device) :=
  (seeks_requireRuntime device).bind fun _ => seeks_place _ _

private theorem seeks_fillTensor (tensor : Tensor) (word : Nat) :
    Seeks wants (fillTensor tensor word) := by
  refine (seeks_require _ rfl).bind fun _ => ?_
  refine seeks_ite (fun _ => seeks_modify fun _ => rfl) fun _ => ?_
  refine (seeks_requireRuntime tensor.device).bind fun runtime => ?_
  exact (seeks_countUpload runtime).bind fun _ => seeks_modify fun _ => rfl

theorem seeks_filledTensor (shape : Shape) (value : Binary64) (kind : ElementKind) (device : Device) :
    Seeks wants (filledTensor shape value kind device) := by
  refine (seeks_lift (missesNone_encodable kind)).bind fun _ => ?_
  refine (seeks_allocateTensor shape kind device).bind fun tensor => ?_
  exact (seeks_fillTensor tensor _).bind fun _ => seeks_pure tensor

private theorem seeks_copyDense (target source : View) : Seeks wants (copyDense target source) :=
  seeks_modify fun _ => rfl

private theorem seeks_uploadDense (target source : View) : Seeks wants (uploadDense target source) :=
  (seeks_requireRuntime target.device).bind fun runtime =>
    (seeks_countUpload runtime).bind fun _ => seeks_copyDense target source

private theorem seeks_downloadDense (target source : View) :
    Seeks wants (downloadDense target source) :=
  (seeks_requireRuntime source.device).bind fun _ => seeks_copyDense target source

section Rearranging

variable (moves : ∀ type, wants .rearrange type)
include moves

private theorem seeks_rearrangeInto (target source : Handle) :
    Seeks wants (rearrangeInto target source) := by
  refine (seeks_requireSameDevice target [source]).bind fun _ => ?_
  refine (seeks_defined target).bind fun y => (seeks_defined source).bind fun x => ?_
  refine (seeks_require _ rfl).bind fun _ => ?_
  exact seeks_launch (moves _) (Work.settles_rearrange y.toView x.toView) fun _ => missesNone_pure _

private theorem seeks_rearranged (source : Handle) : Seeks wants (rearranged source) := by
  refine (seeks_defined source).bind fun x => ?_
  refine (seeks_allocateTensor x.shape x.kind x.device).bind fun y => ?_
  exact (seeks_rearrangeInto moves _ _).bind fun _ => seeks_pure y

theorem seeks_contiguousTensor (source : Tensor) : Seeks wants (contiguousTensor source) :=
  seeks_ite (fun _ => seeks_pure source) fun _ => seeks_rearranged moves (some source)

private theorem seeks_copyAcross {transfer : View → View → Action Unit}
    (transfers : ∀ target source, Seeks wants (transfer target source)) (target source : Tensor) :
    Seeks wants (copyAcross transfer target source) := by
  refine seeks_ite (fun _ => transfers _ _) fun _ => ?_
  refine (seeks_allocateTensor _ _ _).bind fun dense => ?_
  exact (transfers _ _).bind fun _ => seeks_rearrangeInto moves _ _

private theorem seeks_copyInto (target source : Handle) : Seeks wants (copyInto target source) := by
  refine (seeks_defined target).bind fun y => (seeks_defined source).bind fun x => ?_
  refine (seeks_require _ rfl).bind fun _ => (seeks_require _ rfl).bind fun _ => ?_
  refine seeks_ite (fun _ => ?_) fun _ => ?_
  · refine seeks_ite (fun _ => ?_) fun _ => seeks_rearrangeInto moves _ _
    exact (seeks_requireRuntime _).bind fun _ => seeks_copyDense _ _
  · refine (seeks_contiguousTensor moves x).bind fun dense => ?_
    refine seeks_ite (fun _ => seeks_copyAcross moves seeks_downloadDense y dense) fun _ => ?_
    refine seeks_ite (fun _ => seeks_copyAcross moves seeks_uploadDense y dense) fun _ => ?_
    refine (seeks_allocateTensor _ _ _).bind fun onHost => ?_
    exact (seeks_copyAcross moves seeks_downloadDense onHost dense).bind fun _ =>
      seeks_copyAcross moves seeks_uploadDense y onHost

theorem seeks_toDevice (source : Tensor) (device : Device) : Seeks wants (toDevice source device) := by
  refine seeks_ite (fun _ => seeks_pure source) fun _ => ?_
  refine (seeks_allocateTensor _ _ _).bind fun copy => ?_
  exact (seeks_copyInto moves _ _).bind fun _ => seeks_pure copy

theorem seeks_normalizedActivation (activation : Handle) :
    Seeks wants (normalizedActivation activation) := by
  refine (seeks_defined activation).bind fun x => (seeks_require _ rfl).bind fun _ => ?_
  cases x.toView.rowStride? with
  | some row =>
    refine (seeks_lift (x.toView.missesNone_restride _ _)).bind fun view => ?_
    exact (seeks_share view).bind fun _ => seeks_pure _
  | none =>
    refine (seeks_contiguousTensor moves x).bind fun dense => ?_
    refine (seeks_lift (dense.toView.missesNone_reshape _)).bind fun view => ?_
    exact (seeks_share view).bind fun _ => seeks_pure _

theorem seeks_normalizedWeight (weight : Handle) : Seeks wants (normalizedWeight weight) := by
  refine (seeks_defined weight).bind fun w => (seeks_require _ rfl).bind fun _ => ?_
  refine seeks_ite (fun _ => ?_) fun _ => (seeks_contiguousTensor moves w).bind fun dense => ?_
  · refine (seeks_lift (w.toView.missesNone_permute _)).bind fun view => ?_
    exact (seeks_share view).bind fun _ => seeks_pure _
  · refine (seeks_lift (dense.toView.missesNone_permute _)).bind fun view => ?_
    exact (seeks_share view).bind fun _ => seeks_pure _

theorem seeks_normalizedScale (scale : Handle) : Seeks wants (normalizedScale scale) := by
  refine (seeks_defined scale).bind fun s => seeks_ite (fun _ => seeks_pure _) fun _ => ?_
  exact (seeks_contiguousTensor moves s).bind fun _ => seeks_pure _

end Rearranging

section Operations

variable {x output : Tensor}

theorem seeks_staticQuantizeInto (wanted : wants .staticQuantize x.device.type)
    (target scale : Handle) : Seeks wants (staticQuantizeInto target (some x) scale) := by
  refine (seeks_requireSameDevice _ _).bind fun _ => (seeks_defined target).bind fun q => ?_
  refine (seeks_defined scale).bind fun s => (seeks_require _ rfl).bind fun _ => ?_
  exact seeks_launch wanted (Work.settles_staticQuantize _ _ _) fun mem =>
    Kernel.missesNone_runStaticQuantize _ _ _ mem

theorem seeks_groupQuantizeInto (wanted : wants .groupQuantize x.device.type)
    (target scales : Handle) (size : UInt64) :
    Seeks wants (groupQuantizeInto target scales (some x) size) := by
  refine (seeks_requireSameDevice _ _).bind fun _ => (seeks_defined target).bind fun q => ?_
  refine (seeks_defined scales).bind fun s => ?_
  refine (seeks_require _ rfl).bind fun _ => (seeks_require _ rfl).bind fun _ => ?_
  exact seeks_launch wanted (Work.settles_groupQuantize _ _ _ _) fun mem =>
    Kernel.missesNone_runGroupQuantize _ _ _ mem _

theorem seeks_scaledProductInto (wanted : wants .scaledProduct output.device.type)
    (left leftScale right rightScale : Handle) :
    Seeks wants (scaledProductInto (some output) left leftScale right rightScale) := by
  refine (seeks_requireSameDevice _ _).bind fun _ => ?_
  refine (seeks_defined left).bind fun a => (seeks_defined leftScale).bind fun aScale => ?_
  refine (seeks_defined right).bind fun b => (seeks_defined rightScale).bind fun bScale => ?_
  exact seeks_launch wanted (Work.settles_scaledProduct _ _ _ _ _) fun mem =>
    Kernel.missesNone_runScaledProduct _ _ _ _ _ mem

theorem seeks_blockScaledProductInto (wanted : wants .blockScaledProduct output.device.type)
    (left leftScale right rightScale : Handle) (rows columns : UInt64) :
    Seeks wants
      (blockScaledProductInto (some output) left leftScale right rightScale rows columns) := by
  refine (seeks_requireSameDevice _ _).bind fun _ => (seeks_require _ rfl).bind fun _ => ?_
  refine (seeks_defined left).bind fun a => (seeks_defined leftScale).bind fun aScale => ?_
  refine (seeks_defined right).bind fun b => (seeks_defined rightScale).bind fun bScale => ?_
  exact seeks_launch wanted (Work.settles_blockScaledProduct _ _ _ _ _ _ _) fun mem =>
    Kernel.missesNone_runBlockScaledProduct _ _ _ _ _ mem _ _

theorem seeks_packedProductInto (wanted : wants .packedProduct output.device.type)
    (left packed scale : Handle) (outFeatures inFeatures : UInt64) :
    Seeks wants (packedProductInto (some output) left packed scale outFeatures inFeatures) := by
  refine (seeks_requireSameDevice _ _).bind fun _ => (seeks_defined left).bind fun a => ?_
  refine (seeks_defined packed).bind fun b => (seeks_defined scale).bind fun s => ?_
  exact seeks_launch wanted (Work.settles_packedProduct _ _ _ _ _ _) fun mem =>
    Kernel.missesNone_runPackedProduct _ _ _ _ mem _ _

theorem seeks_addInto (wanted : wants .add output.device.type) (left right : Handle) :
    Seeks wants (addInto (some output) left right) := by
  refine (seeks_requireSameDevice _ _).bind fun _ => (seeks_defined left).bind fun a => ?_
  refine (seeks_defined right).bind fun b => (seeks_require _ rfl).bind fun _ => ?_
  exact seeks_launch wanted (Work.settles_add _ _ _) fun mem => Kernel.missesNone_runAdd _ _ _ mem

theorem seeks_repacked {weight : Tensor} (wanted : wants .repack weight.device.type) :
    Seeks wants (repacked (some weight)) := by
  refine (seeks_require _ rfl).bind fun _ => (seeks_allocateTensor _ _ _).bind fun packed => ?_
  refine Seeks.bind ?_ fun _ => seeks_pure packed
  refine (seeks_requireSameDevice _ _).bind fun _ => ?_
  exact seeks_launch wanted (Work.settles_repack _ _) fun mem => Kernel.missesNone_runRepack _ _ mem

end Operations

end Tensors

end Action

end QuantLinear
