import QuantLinear.Layer.Forward
import QuantLinear.Proofs.Correspondence.Action

/-!
Layers in two runs that part.

Layers of one configuration that hold corresponding parameters are staged, materialized and
multiplied with alike. Nothing that a layer counts or was told of plays a part in it.
-/

namespace QuantLinear

namespace Correspondence

/-- Parameters of two runs that are both missing or both there. -/
def Slots (c : Correspondence) (slots others : ScaleSlots) : Prop :=
  ∀ role, Option.Rel c.Tensors (slots.get role).tensor? (others.get role).tensor?

theorem Slots.set {c : Correspondence} {slots others : ScaleSlots} (alike : c.Slots slots others)
    {scale same : Tensor} (like : c.Tensors scale same) (role : ScaleRole) :
    c.Slots (slots.set role (.held scale)) (others.set role (.held same)) := by
  intro other
  rw [ScaleSlots.get_set, ScaleSlots.get_set]
  split
  · exact .some like
  · exact alike other

/-- Layers of two runs. -/
structure Layers (c : Correspondence) (layer other : Layer) : Prop where
  spec : other.spec = layer.spec
  device : other.device = layer.device
  weight : c.Tensors layer.weight other.weight
  bias : Option.Rel c.Tensors layer.bias other.bias
  scales : c.Slots layer.scales other.scales
  repacked : other.repacked = layer.repacked

namespace Layers

variable {c : Correspondence} {layer other : Layer}

theorem variant (alike : c.Layers layer other) : other.variant = layer.variant := by
  rw [Layer.variant, Layer.variant, alike.spec]

theorem weightDevice (alike : c.Layers layer other) :
    other.weight.device = layer.weight.device := by
  obtain ⟨storage, handle, same, -⟩ := alike.weight
  rw [same]
  rfl

end Layers

end Correspondence

open Correspondence

namespace Action

variable {c : Correspondence}

/-- Views of two runs. -/
def Views (c : Correspondence) (v w : View) : Prop :=
  ∃ storage, w = v.over storage ∧ c.Pairs v.storage storage

private theorem parallel_shareView {v w : View} (alike : Views c v w) :
    Parallel c.actions c.Tensors (share v) (share w) := by
  obtain ⟨storage, rfl, paired⟩ := alike
  exact parallel_share paired

section Layouts

variable {x y : Tensor}

private theorem accord_reshape (tensors : c.Tensors x y) (shape : Shape) :
    Accord Fault.Alike (Views c) (x.toView.reshape shape) (y.toView.reshape shape) := by
  obtain ⟨storage, handle, rfl, paired⟩ := tensors
  refine (Accord.require (.refl _)).bind fun _ _ _ => ?_
  refine (Accord.require (by exact ⟨rfl, rfl⟩)).bind fun _ _ _ => ?_
  exact ⟨storage, rfl, paired⟩

private theorem accord_restride (tensors : c.Tensors x y) (shape : Shape) (strides : Strides) :
    Accord Fault.Alike (Views c) (x.toView.restride shape strides)
      (y.toView.restride shape strides) := by
  obtain ⟨storage, handle, rfl, paired⟩ := tensors
  exact (Accord.require (.refl _)).bind fun _ _ _ => ⟨storage, rfl, paired⟩

private theorem accord_permute (tensors : c.Tensors x y) (order : List UInt64) :
    Accord Fault.Alike (Views c) (x.toView.permute order) (y.toView.permute order) := by
  obtain ⟨storage, handle, rfl, paired⟩ := tensors
  refine (Accord.require (.refl _)).bind fun _ _ _ => ?_
  exact (Accord.require (.refl _)).bind fun _ _ _ => ⟨storage, rfl, paired⟩

/-- Operands of two runs. -/
def Operands (c : Correspondence) (left right : Operand) : Prop := c.Tensors left.tensor right.tensor

private theorem parallel_normalizedScale (tensors : c.Tensors x y) :
    Parallel c.actions (Operands c) (normalizedScale (some x)) (normalizedScale (some y)) := by
  have like := tensors
  obtain ⟨storage, handle, rfl, -⟩ := tensors
  simp only [normalizedScale, bind_defined]
  refine parallel_ite (fun _ => parallel_pure like) fun _ => ?_
  exact (parallel_contiguousTensor like).bind fun _ _ dense => parallel_pure dense

private theorem parallel_normalizedWeight (tensors : c.Tensors x y) :
    Parallel c.actions (Operands c) (normalizedWeight (some x)) (normalizedWeight (some y)) := by
  have like := tensors
  obtain ⟨storage, handle, rfl, -⟩ := tensors
  simp only [normalizedWeight, bind_defined]
  refine (parallel_require _).bind fun _ _ _ => ?_
  refine parallel_ite (fun _ => ?_) fun _ => ?_
  · refine (parallel_lift (accord_permute like [1, 0])).bind fun _ _ views => ?_
    exact (parallel_shareView views).bind fun _ _ viewed => parallel_pure viewed
  · refine (parallel_contiguousTensor like).bind fun _ _ dense => ?_
    refine (parallel_lift (accord_permute dense [1, 0])).bind fun _ _ views => ?_
    exact (parallel_shareView views).bind fun _ _ viewed => parallel_pure viewed

private theorem parallel_normalizedActivation (tensors : c.Tensors x y) :
    Parallel c.actions (Operands c) (normalizedActivation (some x)) (normalizedActivation (some y)) := by
  have like := tensors
  obtain ⟨storage, handle, rfl, -⟩ := tensors
  simp only [normalizedActivation, bind_defined]
  refine (parallel_require _).bind fun _ _ _ => ?_
  rw [show (x.moved storage handle).rowStride? = x.rowStride? from rfl]
  cases x.rowStride? with
  | some row =>
    refine (parallel_lift (accord_restride like _ _)).bind fun _ _ views => ?_
    exact (parallel_shareView views).bind fun _ _ viewed => parallel_pure viewed
  | none =>
    refine (parallel_contiguousTensor like).bind fun _ _ dense => ?_
    refine (parallel_lift (accord_reshape dense _)).bind fun _ _ views => ?_
    exact (parallel_shareView views).bind fun _ _ viewed => parallel_pure viewed

end Layouts

section Multiply

variable {layer other : Layer} (layers : c.Layers layer other)

include layers

private theorem parallel_readScale (role : ScaleRole) :
    Parallel c.actions c.Tensors (layer.readScale role) (other.readScale role) := by
  have held := layers.scales role
  simp only [Layer.readScale, layers.spec]
  generalize (layer.scales.get role).tensor? = scale at held
  generalize (other.scales.get role).tensor? = same at held
  cases held with
  | none => exact parallel_throw (.refl _)
  | some like =>
    exact (parallel_normalizedScale like).bind fun _ _ ready => parallel_pure ready

variable {x y output same : Tensor} (activations : c.Tensors x y) (outputs : c.Tensors output same)

include activations outputs

private theorem parallel_multiplyStandard :
    Parallel c.actions (fun _ _ => True) (layer.multiplyStandard x output)
      (other.multiplyStandard y same) := by
  have like := activations
  obtain ⟨storage, handle, rfl, -⟩ := activations
  simp only [Layer.multiplyStandard, layers.spec]
  refine (parallel_normalizedWeight layers.weight).bind fun _ _ weights => ?_
  refine (parallel_readScale layers .weight).bind fun _ _ weightScales => ?_
  refine (parallel_allocateTensor _ _ _).bind fun _ _ quantized => ?_
  refine parallel_ite (fun _ => ?_) fun _ => ?_
  · refine (parallel_readScale layers .input).bind fun _ _ inputScales => ?_
    refine (parallel_staticQuantizeInto quantized like inputScales).bind fun _ _ _ => ?_
    exact parallel_scaledProductInto outputs quantized inputScales weights weightScales
  · refine (parallel_allocateTensor _ _ _).bind fun _ _ inputScales => ?_
    refine (parallel_groupQuantizeInto quantized inputScales like _).bind fun _ _ _ => ?_
    exact parallel_scaledProductInto outputs quantized inputScales weights weightScales

private theorem parallel_multiplyBlocks (rows columns : UInt64) :
    Parallel c.actions (fun _ _ => True) (layer.multiplyBlocks rows columns x output)
      (other.multiplyBlocks rows columns y same) := by
  have like := activations
  obtain ⟨storage, handle, rfl, -⟩ := activations
  simp only [Layer.multiplyBlocks, layers.spec]
  refine (parallel_normalizedWeight layers.weight).bind fun _ _ weights => ?_
  refine (parallel_readScale layers .weightInverse).bind fun _ _ weightScales => ?_
  refine (parallel_allocateTensor _ _ _).bind fun _ _ quantized => ?_
  refine (parallel_allocateTensor _ _ _).bind fun _ _ scales => ?_
  refine (parallel_groupQuantizeInto quantized scales like columns).bind fun _ _ _ => ?_
  exact parallel_blockScaledProductInto outputs quantized scales weights weightScales rows columns

private theorem parallel_multiplyPacked :
    Parallel c.actions (fun _ _ => True) (layer.multiplyPacked x output)
      (other.multiplyPacked y same) := by
  simp only [Layer.multiplyPacked, layers.spec]
  refine (parallel_readScale layers .weight).bind fun _ _ weightScales => ?_
  exact parallel_packedProductInto outputs activations layers.weight weightScales _ _

omit activations in
private theorem parallel_addBias :
    Parallel c.actions (fun _ _ => True) (layer.addBias output) (other.addBias same) := by
  have like := outputs
  obtain ⟨storage, handle, rfl, -⟩ := outputs
  have held := layers.bias
  simp only [Layer.addBias, layers.spec]
  generalize layer.bias = bias at held
  generalize other.bias = again at held
  cases held with
  | none => exact parallel_pure trivial
  | some biases =>
    have alike := biases
    obtain ⟨storage, handle, rfl, -⟩ := biases
    refine (parallel_lift (accord_restride alike _ _)).bind fun _ _ views => ?_
    refine (parallel_shareView views).bind fun _ _ rows => ?_
    exact parallel_addInto like like rows

omit outputs in
theorem parallel_product :
    Parallel c.actions c.Tensors (layer.product x) (other.product y) := by
  have like := activations
  obtain ⟨storage, handle, rfl, -⟩ := activations
  simp only [Layer.product, layers.variant, layers.spec, layers.device]
  refine (parallel_normalizedActivation like).bind fun operand again normal => ?_
  have rows : c.Tensors operand.tensor again.tensor := normal
  obtain ⟨u, h, same, -⟩ := normal
  rw [same] at rows ⊢
  refine (parallel_allocateTensor _ _ _).bind fun output made outputs => ?_
  have finish (shape : Shape) :
      Parallel c.actions c.Tensors (do layer.addBias output; share (← output.toView.reshape shape))
        (do other.addBias made; share (← made.toView.reshape shape)) := by
    refine (parallel_addBias layers outputs).bind fun _ _ _ => ?_
    exact (parallel_lift (accord_reshape outputs shape)).bind fun _ _ views =>
      parallel_shareView views
  cases layer.variant with
  | standard _ =>
    exact (parallel_multiplyStandard layers rows outputs).bind fun _ _ _ => finish _
  | block rowSize columnSize =>
    exact (parallel_multiplyBlocks layers rows outputs rowSize columnSize).bind fun _ _ _ => finish _
  | packed => exact (parallel_multiplyPacked layers rows outputs).bind fun _ _ _ => finish _

omit activations outputs in
theorem accord_checkActivation (activation : Handle) :
    Accord Fault.Alike (fun x y => y = x ∧ activation = some x) (layer.checkActivation activation)
      (other.checkActivation activation) := by
  simp only [Layer.checkActivation, layers.spec, layers.device]
  cases activation with
  | none => exact .refl _
  | some x =>
    refine (Accord.require (.refl _)).bind fun _ _ _ => ?_
    refine (Accord.require (.refl _)).bind fun _ _ _ => ?_
    exact (Accord.require (.refl _)).bind fun _ _ _ => ⟨rfl, rfl⟩

end Multiply

theorem parallel_checkKernels (variant : Variant) (device : Device) :
    Parallel c.actions (fun _ _ => True) (checkKernels variant device)
      (checkKernels variant device) := by
  refine parallel_get.bind fun machine same alike => ?_
  rw [Machines.kernels alike]
  exact parallel_forM (fun _ => parallel_require _) _

section Load

/-- Parameters that two runs stage from one tensor: the tensor itself, or a new one in each run. -/
def Parameters (c : Correspondence) : Parameter → Parameter → Prop
  | .weight x, .weight y | .bias x, .bias y => y = x ∨ c.News x y
  | .scale role value, .scale other again => other = role ∧ again = value
  | _, _ => False

private theorem accord_checkWeight (layer : Layer) (value : Handle) :
    Accord Fault.Alike (fun x y => y = x ∧ value = some x) (layer.checkWeight value)
      (layer.checkWeight value) := by
  cases value with
  | none => exact .refl _
  | some x =>
    refine (Accord.require (.refl _)).bind fun _ _ _ => ?_
    exact (Accord.require (.refl _)).bind fun _ _ _ => ⟨rfl, rfl⟩

private theorem accord_checkBias (layer : Layer) (value : Handle) :
    Accord Fault.Alike (fun x y => y = x ∧ value = some x) (layer.checkBias value)
      (layer.checkBias value) := by
  refine (Accord.require (.refl _)).bind fun _ _ _ => ?_
  cases value with
  | none => exact .refl _
  | some x =>
    refine (Accord.require (.refl _)).bind fun _ _ _ => ?_
    exact (Accord.require (.refl _)).bind fun _ _ _ => ⟨rfl, rfl⟩

theorem parallel_stage (layer : Layer) (name : String) {value : Handle}
    (known : ∀ x, value = some x → c.Tensors x x) :
    Parallel c.actions (Parameters c) (layer.stage name value) (layer.stage name value) := by
  have brought (x : Tensor) (given : value = some x) := (parallel_toDevice_new (known x given)
    layer.device).mono fun copy again arrived =>
      (show again = copy ∨ c.News copy again from
        arrived.imp_left fun same => same.2.trans same.1.symm)
  refine parallel_ite (fun _ => ?_) fun _ => parallel_ite (fun _ => ?_) fun _ => ?_
  · refine (parallel_lift (accord_checkWeight layer value)).bind fun x _ given => ?_
    obtain ⟨rfl, given⟩ := given
    exact (brought _ given).bind fun _ _ arrived => parallel_pure arrived
  · refine (parallel_lift (accord_checkBias layer value)).bind fun x _ given => ?_
    obtain ⟨rfl, given⟩ := given
    exact (brought _ given).bind fun _ _ arrived => parallel_pure arrived
  · cases ScaleRole.ofLabel? name with
    | some role => exact parallel_pure ⟨rfl, rfl⟩
    | none => exact parallel_throw (.refl _)

end Load

section Materialize

variable {layer other : Layer} (layers : c.Layers layer other)

include layers

/-- What is made ready of a scale, and the report on it where it was made up. -/
private theorem parallel_readyScale (role : ScaleRole) :
    Parallel c.actions (fun made again => c.Tensors made.1 again.1 ∧ again.2 = made.2)
      (readyScale layer role) (readyScale other role) := by
  have held := layers.scales role
  simp only [readyScale, layers.variant, layers.spec, layers.weightDevice]
  refine (parallel_same _).bind_same fun expected => ?_
  generalize (layer.scales.get role).tensor? = scale at held
  generalize (other.scales.get role).tensor? = same at held
  cases held with
  | none =>
    refine (parallel_filledTensor _ _ _ _).bind fun _ _ ones => ?_
    exact parallel_pure ⟨ones, rfl⟩
  | some scales =>
    have like := scales
    obtain ⟨storage, handle, rfl, -⟩ := scales
    refine (parallel_require _).bind fun _ _ _ => ?_
    refine (parallel_require _).bind fun _ _ _ => ?_
    refine parallel_ite (fun _ => ?_) fun _ => ?_
    · exact (parallel_contiguousTensor like).bind fun _ _ ready => parallel_pure ⟨ready, rfl⟩
    · refine (parallel_toDevice like _).bind fun _ _ moved => ?_
      exact (parallel_contiguousTensor moved).bind fun _ _ ready => parallel_pure ⟨ready, rfl⟩

private theorem parallel_readyScales (roles : List ScaleRole) {slots others : ScaleSlots}
    (alike : c.Slots slots others) :
    Parallel c.actions (fun made again => c.Slots made.1 again.1 ∧ again.2 = made.2)
      (readyScales layer slots roles) (readyScales other others roles) := by
  induction roles generalizing slots others with
  | nil => exact parallel_pure ⟨alike, rfl⟩
  | cons role rest ih =>
    refine (parallel_readyScale layers role).bind fun made again first => ?_
    refine (ih (alike.set first.1 role)).bind fun slots others ready => ?_
    exact parallel_pure ⟨ready.1, by rw [first.2, ready.2]⟩

private theorem parallel_readyWeight :
    Parallel c.actions (fun made again => c.Tensors made.1 again.1 ∧ again.2 = made.2)
      (readyWeight layer) (readyWeight other) := by
  simp only [readyWeight, layers.variant, layers.spec, layers.repacked, layers.weightDevice]
  refine parallel_ite (fun _ => ?_) fun _ => parallel_pure ⟨layers.weight, rfl⟩
  refine (parallel_require _).bind fun _ _ _ => ?_
  exact (parallel_repacked layers.weight).bind fun _ _ packed => parallel_pure ⟨packed, rfl⟩

theorem parallel_materialized :
    Parallel c.actions (fun made again => c.Layers made.1 again.1) (materialized layer)
      (materialized other) := by
  simp only [materialized, layers.variant, layers.spec]
  refine (parallel_readyScales layers _ layers.scales).bind fun scales again ready => ?_
  refine (parallel_readyWeight layers).bind fun weight packed done => ?_
  exact parallel_pure ⟨rfl, layers.device, done.1, layers.bias, ready.1, done.2⟩

end Materialize

end Action

end QuantLinear
