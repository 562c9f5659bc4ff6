import QuantLinear.Layer.Forward
import QuantLinear.Proofs.Invariant
import QuantLinear.Proofs.Layout
import QuantLinear.Proofs.Reference

/-!
The operands that a layer multiplies.

A scale of a sound layer is ready as it is, a weight has its output features as columns once it was
normalized, and quantized activations hold the rounded numbers and the scales of the reference.
-/

namespace QuantLinear

open QuantLinear.Action

theorem ElementKind.size_f8 : (ElementKind.float .f8).size = 1 := rfl

private theorem ElementKind.size_f32 : (ElementKind.float .f32).size = 4 := rfl

theorem ElementKind.isFloating_of_isWideFloating {kind : ElementKind}
    (wide : kind.isWideFloating = true) : kind.isFloating = true :=
  (Bool.and_eq_true_iff.mp wide).1

/-- The scale of a layer that was made ready is its own operand. -/
theorem ends_readScale (layer : Layer) (role : ScaleRole) (machine : Machine) :
    (layer.readScale role).Ends machine
      (fun scale after => machine.Follows [] after ∧ ∀ held, layer.scales.get role = .held held →
        held.isContiguous = true → scale = held ∧ after = machine)
      (fun _ after => machine.Follows [] after ∧ ∀ held, layer.scales.get role = .held held →
        ¬held.isContiguous = true) := by
  simp only [Layer.readScale]
  cases found : layer.scales.get role with
  | held scale =>
    simp only [ScaleSlot.tensor?, ends_bind, ends_pure]
    refine (ends_normalizedScale scale machine).mono (fun operand after made => ?_)
      fun _ after failed => ?_
    · exact ⟨made.1, fun held same packed => by cases same; exact made.2 packed⟩
    · exact ⟨failed.1, fun held same => by cases same; exact failed.2⟩
  | _ => exact ⟨.refl _ _, fun held same => by cases same⟩

namespace Layer

/-- Work on other tensors leaves the numbers of a layer alone. -/
theorem numbers_later {layer : Layer} {before after : Memory} (held : layer.Held before)
    (evolved : before.Evolves [] after) : layer.numbers after = layer.numbers before := by
  have bytes := evolved.contents layer.weight.storage held.weight.stored List.not_mem_nil
  have weight : (layer.numbers after).weight = (layer.numbers before).weight := by
    funext output input
    simp only [numbers, evolved.number held.weight List.not_mem_nil, Kernel.packedNumber, Memory.byte,
      bytes]
  have scale : (layer.numbers after).scale = (layer.numbers before).scale := by
    funext role index
    simp only [numbers]
    cases found : (layer.scales.get role).tensor? with
    | none => simp only
    | some scale =>
      simp only [evolved.numberAt (held.scales role scale (ScaleSlot.held_of_tensor? found))
        List.not_mem_nil]
  have bias : (layer.numbers after).bias = (layer.numbers before).bias := by
    simp only [numbers]
    cases present : layer.bias with
    | none => simp only [Option.map_none]
    | some bias =>
      simp only [Option.map_some, evolved.numberAt (held.bias bias present) List.not_mem_nil]
  rw [numbers, numbers, LayerNumbers.mk.injEq]
  exact ⟨weight, scale, bias⟩

/-- Whether a given scale of the activations can divide them. -/
def Divides (layer : Layer) (mem : Memory) : Prop :=
  (∃ granularity, layer.variant = .standard granularity) → layer.spec.staticActivation = true →
    Kernel.isDivisor ((layer.numbers mem).scale .input [0]) = true

end Layer

/-- A matrix of activations, a place for the product, and a layer that multiplies them. -/
structure Multiplicands (machine : Machine) (layer : Layer) (x output : Tensor) (rows : UInt64)
    (kind : FloatKind) : Prop where
  sound : layer.Sound
  ready : layer.materialized = true
  held : layer.Held machine.memory
  fits : layer.spec.Fits
  batch : rows.toNat * layer.spec.inFeatures.toNat * 4 < 2 ^ 64
  scalesApart : ∀ role scale, layer.scales.get role = .held scale → scale.storage ≠ output.storage
  biasApart : ∀ bias, layer.bias = some bias → bias.storage ≠ output.storage
  dense : machine.memory.Dense output.toView
  outputKind : output.kind = .float kind
  outputShape : output.shape = [rows, layer.spec.outFeatures]
  outputDevice : output.device = layer.device
  has : machine.memory.Has x.toView
  kind_eq : x.kind = .float kind
  wide : x.kind.isWideFloating = true
  shape : x.shape = [rows, layer.spec.inFeatures]
  layout : x.isRowMajor = true
  device : x.device = layer.device
  apart : x.storage ≠ output.storage

/-- The entries of an output that a layer computed. -/
def Multiplied (before : Machine) (layer : Layer) (x output : Tensor) (rows : UInt64)
    (kind : FloatKind) (after : Memory) : Prop :=
  ∀ row < rows.toNat, ∀ j < layer.spec.outFeatures.toNat,
    after.load output.toView [row, j] =
      kind.encode (Reference.product (layer.numbers before.memory) layer.spec
        (fun p => before.memory.number x.toView kind [row, p]) j)

namespace Multiplicands

variable {machine middle : Machine} {layer : Layer} {x output : Tensor} {rows : UInt64} {kind : FloatKind}

theorem unpacked (ready : Multiplicands machine layer x output rows kind)
    (plain : layer.variant ≠ .packed) : layer.repacked = false := by
  rw [Bool.eq_false_iff]
  exact fun packed => plain (ready.sound.repacked.mp packed).2

theorem features_lt (ready : Multiplicands machine layer x output rows kind) :
    layer.spec.inFeatures.toNat < 2 ^ 63 :=
  Nat.lt_of_le_of_lt
    (Nat.le_mul_of_pos_left _ (toNat_pos_of_ne_zero ready.sound.features.2)) ready.fits.weight

private theorem weightBytes (ready : Multiplicands machine layer x output rows kind)
    (plain : layer.repacked = false) :
    layer.weight.shape.count * layer.weight.kind.size < 2 ^ 64 := by
  obtain ⟨weightKind, weightShape⟩ := ready.sound.plainWeight plain
  have small := ready.fits.weight
  rw [weightKind, weightShape, Shape.count_pair, ElementKind.size_f8]
  omega

/-- Work on other tensors leaves the activations alone. -/
theorem number (ready : Multiplicands machine layer x output rows kind)
    (followed : machine.Follows [] middle) (index : Index) :
    middle.memory.number x.toView kind index = machine.memory.number x.toView kind index :=
  followed.memory.number ready.has List.not_mem_nil kind index

/-- A packed weight shows the numbers of the reference. -/
theorem packedNumber (ready : Multiplicands machine layer x output rows kind)
    (packed : layer.repacked = true) (followed : machine.Follows [] middle) (j p : Nat) :
    Kernel.packedNumber middle.memory layer.weight.toView layer.spec.outFeatures j p =
      (layer.numbers machine.memory).weight j p := by
  have bytes := followed.memory.contents layer.weight.storage ready.held.weight.stored
    List.not_mem_nil
  simp only [Layer.numbers, packed, if_true, Kernel.packedNumber, Memory.byte, bytes]

theorem later (ready : Multiplicands machine layer x output rows kind)
    (followed : machine.Follows [] middle) : Multiplicands middle layer x output rows kind :=
  { ready with
    held := ready.held.later followed.memory
    dense := ready.dense.later followed.memory
    has := ready.has.later followed.memory }

end Multiplicands

namespace Kernel.ScaleOperand

variable {mem : Memory} {target scale : View} {kind : FloatKind}

theorem single (ready : ScaleOperand mem target scale kind) (shape : scale.shape = [1]) (i : Nat) :
    mem.scaleNumber scale kind i = mem.number scale kind [0] := by
  refine ready.number (by rw [shape]; exact ⟨Nat.one_pos, trivial⟩) ?_
  simp [shape, View.numel, Shape.numel, Shape.placeOf]

theorem singleNumber (ready : ScaleOperand mem target scale kind) (shape : scale.shape = [1]) :
    Kernel.singleNumber mem scale kind = mem.number scale kind [0] := by
  rw [← ready.single shape 0, Memory.scaleNumber]
  simp [Kernel.singleNumber]

/-- Scales for all channels serve one each. -/
theorem channel (ready : ScaleOperand mem target scale kind) {channels : UInt64}
    (shape : scale.shape = [channels]) {i : Nat} (below : i < channels.toNat) :
    mem.scaleNumber scale kind i = mem.number scale kind [i] := by
  refine ready.number (by rw [shape]; exact ⟨below, trivial⟩) ?_
  have count : scale.numel = channels := by
    rw [View.numel, shape, Shape.numel_cons]
    exact UInt64.mul_one channels
  rw [shape, count]
  split
  · next one =>
    have first : i = 0 := by simpa [one] using below
    simp [Shape.placeOf, first]
  · simp [Shape.placeOf]

/-- Scales for all rows serve one each. -/
theorem row (ready : ScaleOperand mem target scale kind) {rows : UInt64}
    (shape : scale.shape = [rows, 1]) {i : Nat} (below : i < rows.toNat) :
    mem.scaleNumber scale kind i = mem.number scale kind [i, 0] := by
  refine ready.number (by rw [shape]; exact Shape.within_of_lt below Nat.one_pos) ?_
  have count : scale.numel = rows := by
    rw [View.numel, shape, Shape.numel_cons, Shape.numel_cons]
    exact UInt64.mul_one rows
  rw [shape, count]
  split
  · next one =>
    have first : i = 0 := by simpa [one] using below
    simp [Shape.placeOf, Shape.count_cons, first]
  · simp [Shape.placeOf, Shape.count_cons]

end Kernel.ScaleOperand

/-- A scale of a layer, ready to be an operand. -/
structure LayerScale (mem : Memory) (layer : Layer) (numbers : LayerNumbers) (role : ScaleRole)
    (output scale : Tensor) : Prop where
  shape : scale.shape = layer.scaleShape role
  device : scale.device = layer.device
  number : ∃ kind, Kernel.ScaleOperand mem output.toView scale.toView kind ∧
    ∀ index, mem.number scale.toView kind index = numbers.scale role index

theorem LayerScale.later {before after : Memory} {layer : Layer} {numbers : LayerNumbers}
    {role : ScaleRole} {output scale : Tensor}
    (ready : LayerScale before layer numbers role output scale) (evolved : before.Evolves [] after) :
    LayerScale after layer numbers role output scale := by
  obtain ⟨kind, operand, same⟩ := ready.number
  refine { ready with number := ⟨kind, { operand with has := operand.has.later evolved }, ?_⟩ }
  intro index
  rw [evolved.number operand.has List.not_mem_nil]
  exact same index

theorem ends_layerScale (machine middle : Machine) (layer : Layer) (role : ScaleRole)
    (x output : Tensor) (rows : UInt64) (kind : FloatKind) :
    (layer.readScale role).Ends middle
      (fun scale after => middle.Follows [] after ∧
        (Multiplicands machine layer x output rows kind → role ∈ layer.required →
          LayerScale machine.memory layer (layer.numbers machine.memory) role output scale))
      (fun _ after => middle.Follows [] after ∧
        (Multiplicands machine layer x output rows kind → role ∉ layer.required)) := by
  refine (ends_readScale layer role middle).mono (fun operand after read => ?_)
    fun _ after failed => ?_
  · refine ⟨read.1, fun ready member => ?_⟩
    obtain ⟨scale, held, packed, floating, device, shape⟩ :=
      ready.sound.scales ready.ready role member
    obtain ⟨rfl, -⟩ := read.2 scale held packed
    obtain ⟨scaleKind, float⟩ := ElementKind.float_of_isFloating floating
    have expected := (Layer.expectedShape_of_required member).symm.trans shape
    refine ⟨(Except.ok.inj expected).symm, device, scaleKind, ⟨ready.held.scales role operand held,
      packed, float, .of_storage (ready.scalesApart role operand held).symm⟩, fun index => ?_⟩
    simp only [Layer.numbers, held, ScaleSlot.tensor?, Memory.numberAt_eq float]
  · refine ⟨failed.1, fun ready member => ?_⟩
    obtain ⟨scale, held, packed, -⟩ := ready.sound.scales ready.ready role member
    exact failed.2 scale held packed

/-- The weight of a layer, not packed, with output features as its columns. -/
structure WeightColumns (mem : Memory) (layer : Layer) (numbers : LayerNumbers) (w : Tensor) : Prop where
  has : mem.Has w.toView
  kind_eq : w.kind = .float .f8
  shape : w.shape = [layer.spec.inFeatures, layer.spec.outFeatures]
  layout : w.isColumnMajor = true
  device : w.device = layer.device
  numbers : ∀ j < layer.spec.outFeatures.toNat, ∀ p < layer.spec.inFeatures.toNat,
    mem.number w.toView .f8 [p, j] = numbers.weight j p

theorem WeightColumns.later {before after : Memory} {layer : Layer} {numbers : LayerNumbers}
    {w : Tensor} (columns : WeightColumns before layer numbers w) (evolved : before.Evolves [] after) :
    WeightColumns after layer numbers w :=
  { columns with
    has := columns.has.later evolved
    numbers := fun j inRows p inColumns => by
      rw [evolved.number columns.has List.not_mem_nil]
      exact columns.numbers j inRows p inColumns }

theorem ends_weightColumns (layer : Layer) (x output : Tensor) (rows : UInt64) (kind : FloatKind)
    (machine : Machine) :
    (normalizedWeight (some layer.weight)).Ends machine
      (fun operand after => machine.Follows [] after ∧
        (Multiplicands machine layer x output rows kind → layer.variant ≠ .packed →
          WeightColumns after.memory layer (layer.numbers machine.memory) operand.tensor))
      (fun _ after => machine.Follows [] after ∧
        (Multiplicands machine layer x output rows kind → layer.variant ≠ .packed →
          ¬machine.Serves layer.device)) := by
  refine (ends_normalizedWeight layer.weight machine).mono (fun operand after made => ?_)
    fun _ after failed => ?_
  · obtain ⟨followed, kept, device, -, -, columns⟩ := made
    refine ⟨followed, fun ready plain => ?_⟩
    have unpacked := ready.unpacked plain
    obtain ⟨weightKind, weightShape⟩ := ready.sound.plainWeight unpacked
    obtain ⟨there, columns⟩ := columns ready.held.weight
    have arranged := columns _ _ weightShape fun _ => ready.weightBytes unpacked
    refine ⟨there, kept.trans weightKind, arranged.shape, arranged.layout,
      device.trans ready.sound.weightDevice, fun j inRows p inColumns => ?_⟩
    rw [Memory.number, arranged.words j inRows p inColumns]
    simp only [Layer.numbers, unpacked, Bool.false_eq_true, if_false, Memory.number]
  · refine ⟨failed.1, fun ready plain serves => ?_⟩
    rw [← ready.sound.weightDevice] at serves
    exact failed.2 serves _ _ (ready.sound.plainWeight (ready.unpacked plain)).2

structure QuantizedRows (mem : Memory) (quantized : Tensor) (rows depth : UInt64) (device : Device)
    (number : Nat → Nat → Binary32) : Prop where
  kind_eq : quantized.kind = .float .f8
  shape : quantized.shape = [rows, depth]
  layout : quantized.isRowMajor = true
  device : quantized.device = device
  numbers : ∀ row < rows.toNat, ∀ p < depth.toNat,
    mem.number quantized.toView .f8 [row, p] = number row p

structure GroupScales (mem : Memory) (output scale : Tensor) (rows groups : UInt64)
    (device : Device) (number : Nat → Nat → Binary32) : Prop where
  shape : scale.shape = [rows, groups]
  device : scale.device = device
  operand : Kernel.ScaleOperand mem output.toView scale.toView .f32
  numbers : ∀ row < rows.toNat, ∀ group < groups.toNat,
    mem.number scale.toView .f32 [row, group] = number row group

namespace Fresh

variable {before after : Machine} {later : Memory} {changed : List Nat} {rows columns : UInt64}
  {device : Device} {output tensor : Tensor}

/-- A new tensor of eight bit numbers is a left factor once it is written. -/
theorem quantizedRows (fresh : Fresh before (.float .f8) [rows, columns] device tensor after)
    {number : Nat → Nat → Binary32}
    (numbers : ∀ row < rows.toNat, ∀ p < columns.toNat,
      later.number tensor.toView .f8 [row, p] = number row p) :
    QuantizedRows later tensor rows columns device number where
  kind_eq := fresh.kind_eq
  shape := fresh.shape_eq
  layout := by
    have inner := fresh.has.stride_of_isContiguous fresh.shape_eq fresh.isContiguous
    rw [View.isRowMajor, View.rank, fresh.shape_eq]
    simpa using inner
  device := fresh.device_eq
  numbers := numbers

/-- A new tensor of single precision numbers scales groups once it is written. -/
private theorem groupScales (fresh : Fresh before (.float .f32) [rows, columns] device tensor after)
    (there : before.memory.Has output.toView) (evolved : after.memory.Evolves changed later)
    {number : Nat → Nat → Binary32}
    (numbers : ∀ row < rows.toNat, ∀ group < columns.toNat,
      later.number tensor.toView .f32 [row, group] = number row group) :
    GroupScales later output tensor rows columns device number where
  shape := fresh.shape_eq
  device := fresh.device_eq
  operand := ⟨fresh.has.later evolved, fresh.isContiguous, fresh.kind_eq,
    .of_storage (fresh.apart there)⟩
  numbers := numbers

end Fresh

/-- A group of a matrix has the scale that the reference measures, as long as the matrix stays. -/
private theorem Kernel.measuredScale_eq {before after : Memory} {x : View} {depth : UInt64}
    {kind : FloatKind}
    (extent : x.extent 1 = depth)
    (same : ∀ index, after.number x kind index = before.number x kind index) (size : UInt64)
    (row group : Nat) :
    measuredScale after x kind size row group =
      Reference.measuredScale (group * size.toNat)
        (min depth.toNat (group * size.toNat + size.toNat))
        (fun p => before.number x kind [row, p]) := by
  simp only [measuredScale, rowPeak, extent, same]
  rfl

/-- A matrix of activations that is quantized in groups of `size` columns. -/
structure Grouping (mem : Memory) (x output : Tensor) (rows depth groups size : UInt64)
    (kind : FloatKind) : Prop where
  has : mem.Has x.toView
  output : mem.Has output.toView
  kind_eq : x.kind = .float kind
  shape : x.shape = [rows, depth]
  some : size ≠ 0
  fits : depth.toNat + size.toNat - 1 < 2 ^ 64
  groups : groups = ceilDiv depth size
  bytes : rows.toNat * depth.toNat * 4 < 2 ^ 64

section Groups

variable {first middle placed : Machine} {x output quantized scale : Tensor}
  {rows depth groups size : UInt64} {kind : FloatKind}

/-- Activations and new tensors for their numbers and their scales are what group quantization
takes. -/
theorem Grouping.operands (ready : Grouping first.memory x output rows depth groups size kind)
    (freshNumbers : Fresh first (.float .f8) [x.extent 0, depth] x.device quantized middle)
    (freshScales : Fresh middle (.float .f32) [x.extent 0, groups] x.device scale placed) :
    Kernel.GroupOperands placed.memory quantized.toView scale.toView x.toView rows depth size .f32
      kind := by
  have extent := (View.extent_pair ready.shape).1
  have bytes := ready.bytes
  have there := ready.has.later freshNumbers.follows.memory
  refine
    { targetSeparate := ((freshNumbers.dense ?_).later freshScales.follows.memory).separate
      scalesSeparate := (freshScales.dense ?_).separate
      targetKind := freshNumbers.kind_eq
      scalesKind := freshScales.kind_eq
      sourceKind := ready.kind_eq
      targetShape := by rw [freshNumbers.shape_eq, extent]
      scalesShape := by rw [freshScales.shape_eq, extent, ready.groups]
      sourceShape := ready.shape
      targetApart := .of_storage (freshScales.apart freshNumbers.has)
      sourceApart := by
        simp only [List.forall_mem_cons, List.not_mem_nil, false_imp_iff, implies_true, and_true]
        exact ⟨.of_storage (freshNumbers.apart ready.has).symm,
          .of_storage (freshScales.apart there).symm⟩
      some := ready.some
      fits := ready.fits }
  · rw [extent, Shape.count_pair, ElementKind.size_f8]
    omega
  · -- there are no more groups than columns
    have fewer := Nat.mul_le_mul_left rows.toNat (toNat_ceilDiv_le ready.some ready.fits)
    rw [← ready.groups] at fewer
    rw [extent, Shape.count_pair, ElementKind.size_f32]
    omega

/-- Quantizing activations in groups, with new tensors for their numbers and for the scales. -/
theorem ends_quantizeGroups
    (freshNumbers : Fresh first (.float .f8) [x.extent 0, depth] x.device quantized middle)
    (freshScales : Fresh middle (.float .f32) [x.extent 0, groups] x.device scale placed) :
    (groupQuantizeInto (some quantized) (some scale) (some x) size).Ends placed
      (fun _ after => first.Follows [] after ∧
        (Grouping first.memory x output rows depth groups size kind →
          QuantizedRows after.memory quantized rows depth x.device (fun row p =>
            Reference.rounded (first.memory.number x.toView kind [row, p] /
              Reference.measuredScale (p / size.toNat * size.toNat)
                (min depth.toNat (p / size.toNat * size.toNat + size.toNat))
                (fun p => first.memory.number x.toView kind [row, p]))) ∧
          GroupScales after.memory output scale rows groups x.device (fun row group =>
            Reference.measuredScale (group * size.toNat)
              (min depth.toNat (group * size.toNat + size.toNat))
              (fun p => first.memory.number x.toView kind [row, p]))))
      (fun _ after => first.Follows [] after ∧
        (Grouping first.memory x output rows depth groups size kind → ¬first.Serves x.device)) := by
  have followed := freshNumbers.follows.trans freshScales.follows
  have operands (ready : Grouping first.memory x output rows depth groups size kind) :=
    ready.operands freshNumbers freshScales
  refine ((ends_groupQuantizeInto quantized scale x size placed).ofRun _ fun ready => ⟨⟨
      freshNumbers.device_eq, freshNumbers.device_eq.trans freshScales.device_eq.symm,
      by rw [View.rank, (operands ready).sourceShape]; rfl,
      (operands ready).targetShape.trans (operands ready).sourceShape.symm, ready.some⟩,
    Kernel.runGroupQuantize_spec (operands ready)⟩).mono (fun _ after ended => ?_)
    fun _ after failed => ?_
  · obtain ⟨written, entries⟩ := ended
    -- both targets are new, so nothing that was there at first changed
    have new : ∀ storage ∈ [quantized.storage, scale.storage], first.memory.next ≤ storage := by
      simp only [List.mem_cons, List.not_mem_nil, or_false, forall_eq_or_imp, forall_eq]
      exact ⟨Nat.le_of_eq freshNumbers.storage.symm,
        by rw [freshScales.storage]; exact freshNumbers.follows.memory.grows⟩
    refine ⟨followed.thenFresh written new, fun ready => ?_⟩
    obtain ⟨numbers, scales⟩ := entries ready
    obtain ⟨extent, columns⟩ := View.extent_pair ready.shape
    have same (index : Index) : placed.memory.number x.toView kind index =
        first.memory.number x.toView kind index :=
      followed.memory.number ready.has List.not_mem_nil kind index
    rw [extent] at freshNumbers freshScales
    constructor
    · refine freshNumbers.quantizedRows fun row inRows p inColumns => ?_
      rw [Memory.number, numbers row inRows p inColumns, Kernel.groupWord, same,
        Kernel.measuredScale_eq columns same]
      rfl
    · refine freshScales.groupScales (ready.output.later freshNumbers.follows.memory)
        written.memory fun row inRows group inGroups => ?_
      rw [Memory.number, scales row inRows group (by rwa [← ready.groups]), Kernel.scaleWord,
        FloatKind.f32_decode_encode, Kernel.measuredScale_eq columns same]
  · exact ⟨followed.trans failed.1, fun ready serves => failed.2 ready (serves.later followed)⟩

end Groups

end QuantLinear
