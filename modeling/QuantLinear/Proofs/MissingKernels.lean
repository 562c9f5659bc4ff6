import QuantLinear.Proofs.EndToEnd
import QuantLinear.Proofs.Frozen
import QuantLinear.Proofs.Seeking

/-!
Calls on a layer that fail because a device lacks a kernel.

A call looks first whether the device has every kernel of the layer's variant. It may need two more on
the way: the one that lays an operand out anew, and the one that adds the bias. These are looked for
when they are launched. So a missing kernel of the variant is reported before anything happens, and no
other kernel than those two is found missing later (`applyLayer_missing_kernel`).
-/

namespace QuantLinear

open QuantLinear.Action

/-- The kernels that a call on a layer looks for, with the types of devices that it looks on. -/
def Layer.Wants (layer : Layer) (kernel : Kernel) (type : DeviceType) : Prop :=
  kernel = .rearrange ∨ type = layer.device.type ∧
    (kernel = .add ∧ layer.spec.hasBias = true ∨ kernel ∈ layer.variant.kernels)

namespace Layer.Wants

variable {layer : Layer}

theorem moves (type : DeviceType) : layer.Wants .rearrange type := .inl rfl

theorem multiplies {kernel : Kernel} (member : kernel ∈ layer.variant.kernels) :
    layer.Wants kernel layer.device.type := .inr ⟨rfl, .inr member⟩

end Layer.Wants

section Materializing

variable {layer : Layer}

private theorem missesNone_expectedShape (variant : Variant) (scale : Option ScaleRole)
    (spec : LayerSpec) :
    MissesNone (variant.expectedShape scale spec) := by
  unfold Variant.expectedShape
  split <;> simp [Fault.missing?]

private theorem Layer.missesNone_checkActivation (layer : Layer) (activation : Handle) :
    MissesNone (layer.checkActivation activation) := by
  cases activation <;> simp [checkActivation, Fault.missing?]

private theorem seeks_readyScale (layer : Layer) (role : ScaleRole) :
    Seeks layer.Wants (readyScale layer role) := by
  refine (seeks_lift (missesNone_expectedShape _ _ _)).bind fun expected => ?_
  cases (layer.scales.get role).tensor? with
  | none => exact (seeks_filledTensor _ _ _ _).bind fun _ => seeks_pure _
  | some scale =>
    refine (seeks_require _ rfl).bind fun _ => (seeks_require _ rfl).bind fun _ => ?_
    have compacted (moved : Tensor) : Seeks layer.Wants (do
        let dense ← contiguousTensor moved
        return (dense, (none : Option Placeholder))) :=
      (seeks_contiguousTensor .moves moved).bind fun _ => seeks_pure _
    refine seeks_ite (fun _ => compacted scale) fun _ => ?_
    exact (seeks_toDevice .moves scale _).bind compacted

private theorem seeks_readyScales (layer : Layer) (roles : List ScaleRole) (slots : ScaleSlots) :
    Seeks layer.Wants (readyScales layer slots roles) := by
  induction roles generalizing slots with
  | nil => exact seeks_pure _
  | cons role rest ih =>
    exact (seeks_readyScale layer role).bind fun _ => (ih _).bind fun _ => seeks_pure _

private theorem seeks_readyWeight (home : layer.weight.device = layer.device) :
    Seeks layer.Wants (readyWeight layer) := by
  refine seeks_ite (fun pending => (seeks_require _ rfl).bind fun _ => ?_) fun _ => seeks_pure _
  refine (seeks_repacked ?_).bind fun _ => seeks_pure _
  rw [home]
  exact .multiplies (by simp [pending.1, Variant.kernels])

private theorem seeks_notify {wants : Kernel → DeviceType → Prop} (reports : List Placeholder) :
    Seeks wants (notify reports) := by
  induction reports with
  | nil => exact seeks_pure ()
  | cons report rest ih =>
    refine seeks_get.bind fun machine => ?_
    cases machine.observer with
    | silent => exact seeks_pure ()
    | collecting => exact Seeks.bind (seeks_modify fun _ => rfl) fun _ => ih
    | refusing refuses =>
      refine seeks_get.bind fun before => Seeks.bind (seeks_modify fun _ => rfl) fun _ => ?_
      exact seeks_ite (fun _ => (seeks_throw rfl).bind fun _ => ih) fun _ => ih

/-- Materializing looks for no more than what it takes to move scales and to pack the weight. -/
private theorem ends_ensureMaterialized_lacks {machine : Machine} {id : LayerId}
    (there : machine.layers[id]? = some layer) (home : layer.weight.device = layer.device) :
    (ensureMaterialized id).Ends machine (fun _ _ => True)
      fun fault _ => fault.LacksOnly layer.Wants machine.kernels := by
  cases done : layer.materialized with
  | true =>
    rw [Ends, ensureMaterialized_again there done]
    trivial
  | false =>
    have prepares : Seeks layer.Wants (materialized layer) :=
      (seeks_readyScales layer _ _).bind fun _ => (seeks_readyWeight home).bind fun _ => seeks_pure _
    have commits (made : Layer × List Placeholder) : Seeks layer.Wants (do
        setLayer id made.1
        modify fun machine =>
          { machine with placeholders := machine.placeholders + made.2.length }
        notify made.2 : Action Unit) :=
      Seeks.bind (seeks_modify fun _ => rfl) fun _ =>
        Seeks.bind (seeks_modify fun _ => rfl) fun _ => seeks_notify _
    rw [Ends, ensureMaterialized_eq there done]
    exact (prepares.bind commits machine).mono (fun _ _ _ => trivial) fun _ _ lacks => lacks

end Materializing

section Multiplying

variable {layer : Layer} {x output : Tensor}

private theorem seeks_readScale (layer : Layer) (role : ScaleRole) :
    Seeks layer.Wants (layer.readScale role) := by
  unfold Layer.readScale
  cases (layer.scales.get role).tensor? with
  | none => exact seeks_throw rfl
  | some scale => exact (seeks_normalizedScale .moves (some scale)).bind fun _ => seeks_pure _

private theorem seeks_multiplyStandard {granularity : Granularity}
    (standard : layer.variant = .standard granularity) (near : x.device = layer.device)
    (far : output.device = layer.device) :
    Seeks layer.Wants (layer.multiplyStandard x output) := by
  have wanted (kernel : Kernel) (member : kernel ∈ (Variant.standard granularity).kernels) :
      layer.Wants kernel layer.device.type := .multiplies (standard ▸ member)
  refine (seeks_normalizedWeight .moves _).bind fun w => ?_
  refine (seeks_readScale layer _).bind fun weightScale => ?_
  refine (seeks_allocateTensor _ _ _).bind fun quantized => ?_
  have multiplied (scale : Tensor) : Seeks layer.Wants (scaledProductInto (some output)
      (some quantized) (some scale) (some w.tensor) (some weightScale)) :=
    seeks_scaledProductInto (far ▸ wanted _ (by simp [Variant.kernels])) _ _ _ _
  refine seeks_ite (fun _ => ?_) fun _ => ?_
  · refine (seeks_readScale layer _).bind fun scale => ?_
    refine (seeks_staticQuantizeInto (near ▸ wanted _ (by simp [Variant.kernels])) _ _).bind fun _ => ?_
    exact multiplied scale
  · refine (seeks_allocateTensor _ _ _).bind fun scale => ?_
    refine (seeks_groupQuantizeInto (near ▸ wanted _ (by simp [Variant.kernels])) _ _ _).bind fun _ => ?_
    exact multiplied scale

private theorem seeks_multiplyBlocks {rows columns : UInt64}
    (blocks : layer.variant = .block rows columns)
    (near : x.device = layer.device) (far : output.device = layer.device) :
    Seeks layer.Wants (layer.multiplyBlocks rows columns x output) := by
  have wanted (kernel : Kernel) (member : kernel ∈ (Variant.block rows columns).kernels) :
      layer.Wants kernel layer.device.type := .multiplies (blocks ▸ member)
  refine (seeks_normalizedWeight .moves _).bind fun w => ?_
  refine (seeks_readScale layer _).bind fun weightScale => ?_
  refine (seeks_allocateTensor _ _ _).bind fun quantized => ?_
  refine (seeks_allocateTensor _ _ _).bind fun scale => ?_
  refine (seeks_groupQuantizeInto (near ▸ wanted _ (by simp [Variant.kernels])) _ _ _).bind fun _ => ?_
  exact seeks_blockScaledProductInto (far ▸ wanted _ (by simp [Variant.kernels])) _ _ _ _ _ _

private theorem seeks_multiplyPacked (packed : layer.variant = .packed)
    (far : output.device = layer.device) :
    Seeks layer.Wants (layer.multiplyPacked x output) := by
  refine (seeks_readScale layer _).bind fun weightScale => ?_
  refine seeks_packedProductInto ?_ _ _ _ _ _
  rw [far]
  exact .multiplies (by simp [packed, Variant.kernels])

private theorem seeks_addBias (present : layer.bias.isSome = layer.spec.hasBias)
    (far : output.device = layer.device) : Seeks layer.Wants (layer.addBias output) := by
  unfold Layer.addBias
  cases asked : layer.bias with
  | none => exact seeks_pure ()
  | some bias =>
    have hasBias : layer.spec.hasBias = true := by rw [← present, asked, Option.isSome_some]
    refine (seeks_lift (bias.toView.missesNone_restride _ _)).bind fun view => ?_
    refine (seeks_share view).bind fun rows => seeks_addInto ?_ _ _
    exact .inr ⟨by rw [far], .inl ⟨rfl, hasBias⟩⟩

/-- Multiplying with a layer looks for kernels where the layer lies. -/
private theorem seeks_product (present : layer.bias.isSome = layer.spec.hasBias)
    (home : x.device = layer.device) : Seeks layer.Wants (layer.product x) := by
  have rows (machine : Machine) : (normalizedActivation (some x)).Ends machine
      (fun operand _ => operand.tensor.device = layer.device) fun _ _ => True :=
    (ends_normalizedActivation x machine).mono (fun _ _ made => made.2.2.1.trans home)
      fun _ _ _ => trivial
  have placed (shape : Shape) (machine : Machine) : (allocateTensor shape x.kind layer.device).Ends
      machine (fun output _ => output.device = layer.device) fun _ _ => True :=
    (ends_allocateTensor _ _ _ machine).mono (fun _ _ fresh => fresh.device_eq) fun _ _ _ => trivial
  refine (seeks_normalizedActivation .moves (some x)).bind_of rows fun operand near => ?_
  refine (seeks_allocateTensor _ _ _).bind_of (placed _) fun output far => ?_
  have finished : Seeks layer.Wants (do
      layer.addBias output
      let view ← output.toView.reshape (x.shape.dropLast ++ [layer.spec.outFeatures])
      share view) :=
    (seeks_addBias present far).bind fun _ =>
      (seeks_lift (output.toView.missesNone_reshape _)).bind fun view => seeks_share view
  cases variant : layer.variant with
  | standard granularity => exact (seeks_multiplyStandard variant near far).bind fun _ => finished
  | block rows columns => exact (seeks_multiplyBlocks variant near far).bind fun _ => finished
  | packed => exact (seeks_multiplyPacked variant far).bind fun _ => finished

end Multiplying

section Apply

variable {machine : Machine} {id : LayerId} {layer : Layer}

/-- The check before a call looks for the kernels of a variant, and stops at one that is missing. -/
private theorem ends_checkKernels_lists (variant : Variant) (device : Device) (machine : Machine) :
    (checkKernels variant device).Ends machine
      (fun _ _ => ∀ kernel ∈ variant.kernels, (machine.kernels.find? kernel device.type).isSome = true)
      fun fault after => ∃ kernel ∈ variant.kernels, machine.kernels.find? kernel device.type = none ∧
        fault = .unsupportedVariant variant.describe device (.noKernel kernel) ∧ after = machine := by
  simp only [checkKernels, ends_bind, ends_get]
  generalize variant.kernels = kernels
  induction kernels with
  | nil => exact fun _ member => by cases member
  | cons kernel rest ih =>
    simp only [List.forM, ends_bind, ends_require]
    constructor
    · intro found
      refine ih.mono (fun _ _ others => ?_) fun fault after missing => ?_
      · exact List.forall_mem_cons.mpr ⟨found, others⟩
      · obtain ⟨other, member, lacking⟩ := missing
        exact ⟨other, List.mem_cons_of_mem _ member, lacking⟩
    · intro missing
      exact ⟨kernel, List.mem_cons_self, by simpa using missing, rfl, trivial⟩

/-- A variant that lacks kernels is refused for one of them, and nothing else happens. -/
private theorem applyLayer_unregistered (there : machine.layers[id]? = some layer)
    (unregistered : ¬layer.Registered machine) (activation : Handle) :
    ∃ kernel ∈ layer.variant.kernels, machine.kernels.find? kernel layer.device.type = none ∧
      applyLayer id activation machine = .error
        (.unsupportedVariant layer.variant.describe layer.device (.noKernel kernel)) machine := by
  have listed := ends_checkKernels_lists layer.variant layer.device machine
  cases ran : checkKernels layer.variant layer.device machine with
  | ok answer after => exact absurd (listed.answer ran) unregistered
  | error fault after =>
    obtain ⟨kernel, member, missing, rfl, rfl⟩ := listed.failure ran
    exact ⟨kernel, member, missing, by rw [applyLayer, findLayer_bind there, bind_failed ran]⟩

/-- Once its variant is served, a call looks only for the kernels that move operands and add the bias. -/
private theorem ends_applyLayer_lacks (there : machine.layers[id]? = some layer) (sound : layer.Sound)
    (registered : layer.Registered machine) (activation : Handle) :
    (applyLayer id activation).Ends machine (fun _ _ => True)
      fun fault _ => fault.LacksOnly layer.Wants machine.kernels := by
  rw [Ends, applyLayer_eq there registered]
  change Ends (ensureMaterialized id >>= fun _ => applyReady id activation) machine _ _
  rw [ends_bind]
  apply ((ends_ensureMaterialized_lacks there sound.weightDevice).and (ends_ensureLayer there)).mono
  · rintro _ middle ⟨-, ready, ensured⟩
    have again : ready.Wants = layer.Wants := by
      funext kernel type
      rw [Layer.Wants, Layer.Wants, Layer.variant, Layer.variant, ensured.spec.1, ensured.spec.2]
    simp only [applyReady, findLayer, ends_bind, ends_get, ensured.found there, ends_pure, ends_lift]
    constructor
    · intro x taken
      have takes := (Layer.checkActivation_eq_ok.mp taken).2
      have sought := seeks_product (ensured.sound sound).biasPresent takes.device middle
      rw [again, ensured.kernels] at sought
      exact sought.mono (fun _ _ _ => trivial) fun _ _ lacks => lacks
    · exact fun fault failed => .of_none (ready.missesNone_checkActivation activation fault failed)
  · exact fun _ _ both => both.1

/-- Where a device lacks a kernel of a layer's variant, every call on the layer is refused for such a
kernel, and nothing has happened: no kernel was called, and the layer is as it was. The only other
kernels that a call is refused for are the one that lays operands out anew and, for a layer with a
bias, the one that adds. The variant does not list them, and the operation that launches them reports
that they are missing. -/
theorem applyLayer_missing_kernel (reachable : machine.Reachable)
    (there : machine.layers[id]? = some layer) (activation : Handle) :
    (∀ lacking ∈ layer.variant.kernels, machine.kernels.find? lacking layer.device.type = none →
      ∃ kernel ∈ layer.variant.kernels, machine.kernels.find? kernel layer.device.type = none ∧
        applyLayer id activation machine = .error
          (.unsupportedVariant layer.variant.describe layer.device (.noKernel kernel)) machine) ∧
    ∀ fault after kernel, applyLayer id activation machine = .error fault after →
      fault.missing? = some kernel →
      (kernel ∈ layer.variant.kernels ∧ machine.kernels.find? kernel layer.device.type = none ∧
        fault = .unsupportedVariant layer.variant.describe layer.device (.noKernel kernel) ∧
        after = machine) ∨
      ∃ type, fault = .operation (.noKernel kernel type) ∧ machine.kernels.find? kernel type = none ∧
        (kernel = .rearrange ∨
          kernel = .add ∧ layer.spec.hasBias = true ∧ type = layer.device.type) := by
  refine ⟨fun lacking member missing => ?_, fun fault after kernel failed missing => ?_⟩
  · apply applyLayer_unregistered there
    intro registered
    cases Option.isSome_iff_ne_none.mp (registered lacking member) missing
  by_cases registered : layer.Registered machine
  · have sound := reachable.sound id layer there
    obtain ⟨type, shown, wanted, lacks⟩ :=
      (ends_applyLayer_lacks there sound registered activation).failure failed kernel missing
    refine .inr ⟨type, shown, lacks, ?_⟩
    rcases wanted with moves | ⟨rfl, ⟨adds, bias⟩ | member⟩
    · exact .inl moves
    · exact .inr ⟨adds, bias, rfl⟩
    · cases Option.isSome_iff_ne_none.mp (registered kernel member) lacks
  · obtain ⟨first, member, lacks, refused⟩ := applyLayer_unregistered there registered activation
    cases refused.symm.trans failed
    cases missing
    exact .inl ⟨member, lacks, rfl, rfl⟩

end Apply

/-- The host with entries that count their calls for all kernels but one. -/
def Machine.countingAllBut (machine : Machine) (kernel : Kernel) : Machine :=
  machine.step (.changeKernels fun _ other type =>
    if type = .cpu ∧ other ≠ kernel then some .counting else none)

private theorem reachable_countingAllBut (kernel : Kernel) :
    (withTwoToThree.countingAllBut kernel).Reachable :=
  .step _ reachable_withTwoToThree trivial

/-- A layer with a bias whose device cannot multiply is refused, and none of its kernels is called. -/
theorem applyLayer_missing_kernel_product :
    applyLayer 0 (some columnsOfTwo) (withTwoToThree.countingAllBut .scaledProduct) =
      .error (.unsupportedVariant "Standard(tensor)" .host (.noKernel .scaledProduct))
        (withTwoToThree.countingAllBut .scaledProduct) := by
  have there : (withTwoToThree.countingAllBut .scaledProduct).layers[0]? = some twoToThree := rfl
  obtain ⟨kernel, member, missing, refused⟩ :=
    (applyLayer_missing_kernel (reachable_countingAllBut .scaledProduct) there (some columnsOfTwo)).1
      .scaledProduct (by decide) (by decide)
  have listed : kernel = .staticQuantize ∨ kernel = .groupQuantize ∨ kernel = .scaledProduct := by
    simpa [twoToThree, Layer.variant, LayerSpec.variant, Variant.kernels] using member
  rcases listed with rfl | rfl | rfl
  · exact absurd missing (by decide)
  · exact absurd missing (by decide)
  · exact refused

/-- Where a kernel is missing that no variant lists, a call comes further. Without the one that adds, the
activations have been quantized and multiplied when the bias is refused; without the one that
rearranges, the layer has been materialized when an operand is. -/
theorem applyLayer_refused_late :
    (∃ after, applyLayer 0 (some columnsOfTwo) (withTwoToThree.countingAllBut .add) =
        .error (.operation (.noKernel .add .cpu)) after ∧
      after.calls .groupQuantize = 1 ∧ after.calls .scaledProduct = 1 ∧
      (withTwoToThree.countingAllBut .add).layers[0]?.map Layer.materialized = some false ∧
      after.layers[0]?.map Layer.materialized = some true) ∧
    (∃ after, applyLayer 0 (some columnsOfTwo) (withTwoToThree.countingAllBut .rearrange) =
        .error (.operation (.noKernel .rearrange .cpu)) after ∧
      (withTwoToThree.countingAllBut .rearrange).layers[0]?.map Layer.materialized = some false ∧
      after.layers[0]?.map Layer.materialized = some true) ∧
    ∀ kernel type, (Fault.operation (.noKernel kernel type)).kind = .runtime := by
  have sum : (match applyLayer 0 (some columnsOfTwo) (withTwoToThree.countingAllBut .add) with
    | .ok _ _ => false
    | .error fault after => fault == .operation (.noKernel .add .cpu) &&
        after.calls .groupQuantize == 1 && after.calls .scaledProduct == 1 &&
        after.layers[0]?.map Layer.materialized == some true) = true := by decide +kernel
  have copy : (match applyLayer 0 (some columnsOfTwo) (withTwoToThree.countingAllBut .rearrange) with
    | .ok _ _ => false
    | .error fault after => fault == .operation (.noKernel .rearrange .cpu) &&
        after.layers[0]?.map Layer.materialized == some true) = true := by decide +kernel
  refine ⟨?_, ?_, fun _ _ => rfl⟩
  · split at sum
    · cases sum
    · next fault after failed =>
      simp only [Bool.and_eq_true, beq_iff_eq] at sum
      obtain ⟨⟨⟨rfl, quantized⟩, multiplied⟩, materialized⟩ := sum
      exact ⟨after, failed, quantized, multiplied, rfl, materialized⟩
  · split at copy
    · cases copy
    · next fault after failed =>
      simp only [Bool.and_eq_true, beq_iff_eq] at copy
      obtain ⟨rfl, materialized⟩ := copy
      exact ⟨after, failed, rfl, materialized⟩

end QuantLinear
