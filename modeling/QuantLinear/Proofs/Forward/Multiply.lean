import QuantLinear.Proofs.Forward.Operands

/-!
The three ways to multiply.

Each is followed operation by operation. It writes to its output and to new storages alone; on the
operands of a sound layer it stores the numbers of the reference, and on a served device it fails
only where a given scale of the activations is no divisor.
-/

namespace QuantLinear

open QuantLinear.Action

section Packed

variable {machine middle : Machine} {layer : Layer} {x output scale : Tensor} {rows : UInt64}
  {kind : FloatKind}

/-- The kernel of packed weights on the operands of a layer. -/
private theorem runPackedProduct_layer (ready : Multiplicands machine layer x output rows kind)
    (packed : layer.variant = .packed) (followed : machine.Follows [] middle)
    (scaleReady : LayerScale machine.memory layer (layer.numbers machine.memory) .weight output scale) :
    ∃ after, Kernel.runPackedProduct output.toView x.toView layer.weight.toView scale.toView
        layer.spec.outFeatures layer.spec.inFeatures middle.memory = .ok after ∧
      Multiplied machine layer x output rows kind after := by
  obtain ⟨scaleKind, operand, same⟩ := (scaleReady.later followed.memory).number
  have stored : layer.repacked = true := ready.sound.repacked.mpr ⟨ready.ready, packed⟩
  have form := ready.sound.packedWeight stored
  have channels : scale.shape = [layer.spec.outFeatures] := by
    rw [scaleReady.shape, Layer.scaleShape, packed]
    rfl
  -- The kernel would let a single scale serve all outputs; here there is one for each.
  obtain ⟨after, ran, entries⟩ := Kernel.runPackedProduct_spec
    (ready.dense.later followed.memory).separate ready.outputShape ready.outputKind ready.kind_eq
    ready.wide ready.shape ready.layout form.1 form.2.2.1 form.2.1 operand.kind_eq operand.packed
    (by rw [View.numel, channels]; exact UInt64.mul_one _)
  refine ⟨after, ran, fun row inRows j inColumns => ?_⟩
  have product : Reference.product (layer.numbers machine.memory) layer.spec
      (fun p => machine.memory.number x.toView kind [row, p]) j =
      Reference.packed (layer.numbers machine.memory) layer.spec.inFeatures.toNat
        (fun p => machine.memory.number x.toView kind [row, p]) j := by
    rw [Reference.product, show layer.spec.variant = .packed from packed]
  simp only [entries row inRows j inColumns, product, operand.channel channels inColumns, same,
    ready.number followed, ready.packedNumber stored followed]
  rfl

end Packed

/-- Multiplying with the packed weight. -/
theorem ends_multiplyPacked (layer : Layer) (x output : Tensor) (rows : UInt64) (kind : FloatKind)
    (machine : Machine) :
    (layer.multiplyPacked x output).Ends machine
      (fun _ after => machine.Follows [output.storage] after ∧
        (Multiplicands machine layer x output rows kind → layer.variant = .packed →
          Multiplied machine layer x output rows kind after.memory))
      (fun _ after => machine.Follows [] after ∧
        (Multiplicands machine layer x output rows kind → layer.variant = .packed →
          ¬machine.Serves layer.device)) := by
  have required (packed : layer.variant = .packed) : .weight ∈ layer.required :=
    LayerSpec.packedWeight_required packed
  simp only [Layer.multiplyPacked, ends_bind]
  refine (ends_layerScale machine machine layer .weight x output rows kind).mono
    (fun scale middle read => ?_) fun _ after failed =>
      ⟨failed.1, fun ready packed => absurd (required packed) (failed.2 ready)⟩
  refine ((ends_packedProductInto output x layer.weight scale _ _ middle).ofRun
    (Multiplied machine layer x output rows kind)
    fun able : Multiplicands machine layer x output rows kind ∧ layer.variant = .packed => ?_).mono
    (fun _ after ended => ⟨read.1.trans ended.1, fun ready packed => ended.2 ⟨ready, packed⟩⟩)
    fun _ after failed => ⟨read.1.trans failed.1, fun ready packed serves =>
      failed.2 ⟨ready, packed⟩ (ready.outputDevice ▸ serves.later read.1)⟩
  obtain ⟨ready, packed⟩ := able
  have scaleReady := read.2 ready (required packed)
  refine ⟨?_, runPackedProduct_layer ready packed read.1 scaleReady⟩
  simp [ready.outputDevice, ready.device, ready.sound.weightDevice, scaleReady.device]

theorem Multiplied.since {machine middle : Machine} {layer : Layer} {x output : Tensor}
    {rows : UInt64} {kind : FloatKind} {after : Memory}
    (multiplied : Multiplied middle layer x output rows kind after)
    (ready : Multiplicands machine layer x output rows kind)
    (followed : machine.Follows [] middle) : Multiplied machine layer x output rows kind after := by
  intro row inRows j inColumns
  simp only [multiplied row inRows j inColumns, Layer.numbers_later ready.held followed.memory,
    ready.number followed]

/-- Quantized activations and the weight are factors of a product. -/
private theorem Multiplicands.factors {machine middle : Machine} {layer : Layer}
    {x output quantized w : Tensor} {rows : UInt64} {kind : FloatKind}
    {number : Nat → Nat → Binary32} (ready : Multiplicands machine layer x output rows kind)
    (followed : machine.Follows [] middle)
    (left : QuantizedRows middle.memory quantized rows layer.spec.inFeatures layer.device number)
    (right : WeightColumns machine.memory layer (layer.numbers machine.memory) w) :
    Kernel.ProductOperands middle.memory output.toView quantized.toView w.toView rows
      layer.spec.inFeatures layer.spec.outFeatures kind where
  separate := (ready.dense.later followed.memory).separate
  targetShape := ready.outputShape
  targetKind := ready.outputKind
  leftKind := left.kind_eq
  leftShape := left.shape
  leftLayout := left.layout
  rightKind := right.kind_eq
  rightShape := right.shape
  rightLayout := right.layout

/-- Activations quantized for a layer with single scales, with the numbers that the reference
multiplies and the scales it applies. -/
structure ScaledRows (mem : Memory) (layer : Layer) (numbers : LayerNumbers)
    (granularity : Granularity) (output quantized scale : Tensor) (rows : UInt64)
    (x : Nat → Nat → Binary32) (scaleKind : FloatKind) (number : Nat → Nat → Binary32)
    (rowScale : Nat → Binary32) : Prop where
  quantized : QuantizedRows mem quantized rows layer.spec.inFeatures layer.device number
  operand : Kernel.ScaleOperand mem output.toView scale.toView scaleKind
  device : scale.device = layer.device
  count : scale.numel = 1 ∨ scale.numel = rows
  scales : ∀ row < rows.toNat, mem.scaleNumber scale.toView scaleKind row = rowScale row
  product : ∀ row < rows.toNat, ∀ j, Reference.product numbers layer.spec (x row) j =
    Reference.sum 0 layer.spec.inFeatures.toNat (fun p => number row p * numbers.weight j p) *
      rowScale row * numbers.scale .weight [if granularity = .channel then j else 0]

section Standard

variable {machine before middle placed : Machine} {layer : Layer} {granularity : Granularity}
  {x output quantized scale w weightScale : Tensor} {rows : UInt64} {kind : FloatKind}

/-- The kernel of a given scale on the activations of a layer. It refuses a scale that is no divisor. -/
private theorem runStaticQuantize_layer (ready : Multiplicands machine layer x output rows kind)
    (scaleReady : LayerScale machine.memory layer (layer.numbers machine.memory) .input output scale)
    (followed : machine.Follows [] before)
    (fresh : Fresh before (.float .f8) [x.extent 0, layer.spec.inFeatures] x.device quantized middle) :
    x.extent 0 = rows ∧ quantized.shape = x.shape ∧
    if Kernel.isDivisor ((layer.numbers machine.memory).scale .input [0]) then
      ∃ after, Kernel.runStaticQuantize quantized.toView x.toView scale.toView middle.memory =
          .ok after ∧
        ∀ index, x.shape.Within index → after.load quantized.toView index =
          FloatKind.f8.encode (machine.memory.number x.toView kind index *
            (Binary32.one / (layer.numbers machine.memory).scale .input [0]))
    else ∃ fault, Kernel.runStaticQuantize quantized.toView x.toView scale.toView middle.memory =
      .error fault := by
  have whole := followed.trans fresh.follows
  obtain ⟨scaleKind, operand, same⟩ := (scaleReady.later whole.memory).number
  have single : scale.shape = [1] := scaleReady.shape
  have extent := (View.extent_pair ready.shape).1
  have shape : quantized.shape = x.shape := by rw [fresh.shape_eq, extent, ready.shape]
  have bytes := ready.batch
  have dense := fresh.dense (by rw [extent, Shape.count_pair, ElementKind.size_f8]; omega)
  have ran := Kernel.runStaticQuantize_spec dense.separate fresh.kind_eq shape
    (.of_storage (fresh.apart (ready.has.later followed.memory)).symm)
    (by rw [View.numel, single]; rfl) operand.kind_eq ready.kind_eq
  simp only [operand.singleNumber single, same, ready.number whole] at ran
  exact ⟨extent, shape, ran⟩

/-- Quantizing activations with the scale that was given for them. -/
private theorem ends_quantizeStatic (granularity : Granularity) (output : Tensor) (rows : UInt64)
    (kind : FloatKind) (followed : machine.Follows [] before)
    (fresh : Fresh before (.float .f8) [x.extent 0, layer.spec.inFeatures] x.device quantized middle) :
    (staticQuantizeInto (some quantized) (some x) (some scale)).Ends middle
      (fun _ after => machine.Follows [] after ∧
        (Multiplicands machine layer x output rows kind →
          LayerScale machine.memory layer (layer.numbers machine.memory) .input output scale →
          layer.variant = .standard granularity → layer.spec.staticActivation = true →
          Kernel.isDivisor ((layer.numbers machine.memory).scale .input [0]) = true ∧
          ∃ scaleKind number rowScale, ScaledRows after.memory layer (layer.numbers machine.memory)
            granularity output quantized scale rows
            (fun row p => machine.memory.number x.toView kind [row, p]) scaleKind number rowScale))
      (fun _ after => machine.Follows [] after ∧
        (Multiplicands machine layer x output rows kind →
          LayerScale machine.memory layer (layer.numbers machine.memory) .input output scale →
          machine.Serves layer.device →
          ¬Kernel.isDivisor ((layer.numbers machine.memory).scale .input [0]) = true)) := by
  have whole := followed.trans fresh.follows
  refine (ends_staticQuantizeInto quantized x scale middle).mono (fun _ after ended => ?_)
    fun _ after failed => ?_
  · obtain ⟨written, ran⟩ := ended
    have finished := whole.thenFresh written (by simpa [fresh.storage] using followed.memory.grows)
    refine ⟨finished, fun ready scaleReady standard given => ?_⟩
    obtain ⟨extent, shape, spec⟩ := runStaticQuantize_layer ready scaleReady followed fresh
    split at spec
    · next divides =>
      obtain ⟨mem, done, numbers⟩ := spec
      cases done.symm.trans ran
      rw [extent] at fresh
      have single : scale.shape = [1] := scaleReady.shape
      obtain ⟨scaleKind, operand, same⟩ := (scaleReady.later finished.memory).number
      refine ⟨divides, scaleKind, fun row p => Reference.rounded
        (machine.memory.number x.toView kind [row, p] *
          (Binary32.one / (layer.numbers machine.memory).scale .input [0])),
        fun _ => (layer.numbers machine.memory).scale .input [0], ?_⟩
      refine
        { quantized := ?_
          operand := operand
          device := scaleReady.device
          count := .inl (by rw [View.numel, single]; rfl)
          scales := fun row _ => by rw [operand.single single, same]
          product := fun row _ j => ?_ }
      · rw [← ready.device]
        refine fresh.quantizedRows fun row inRows p inColumns => ?_
        rw [Memory.number, numbers]
        · rfl
        · rw [ready.shape]
          exact Shape.within_of_lt inRows inColumns
      · rw [Reference.product, show layer.spec.variant = .standard granularity from standard]
        simp only [given, if_true]
        rfl
    · obtain ⟨fault, failed⟩ := spec
      cases failed.symm.trans ran
  · refine ⟨whole.trans failed.1, fun ready scaleReady serves divides => ?_⟩
    obtain ⟨-, shape, spec⟩ := runStaticQuantize_layer ready scaleReady followed fresh
    rw [if_pos divides] at spec
    obtain ⟨mem, done, -⟩ := spec
    rw [← ready.device] at serves
    cases done.symm.trans (failed.2 (serves.later whole) ⟨fresh.device_eq,
      fresh.device_eq.trans (ready.device.trans scaleReady.device.symm), shape⟩)

/-- Quantizing activations with scales that are measured row by row. -/
private theorem ends_quantizeDynamic (granularity : Granularity) (output : Tensor) (rows : UInt64)
    (kind : FloatKind) (followed : machine.Follows [] before)
    (freshNumbers :
      Fresh before (.float .f8) [x.extent 0, layer.spec.inFeatures] x.device quantized middle)
    (freshScales : Fresh middle (.float .f32) [x.extent 0, 1] x.device scale placed) :
    (groupQuantizeInto (some quantized) (some scale) (some x) layer.spec.inFeatures).Ends placed
      (fun _ after => machine.Follows [] after ∧
        (Multiplicands machine layer x output rows kind → layer.variant = .standard granularity →
          layer.spec.staticActivation = false →
          ∃ scaleKind number rowScale, ScaledRows after.memory layer (layer.numbers machine.memory)
            granularity output quantized scale rows
            (fun row p => machine.memory.number x.toView kind [row, p]) scaleKind number rowScale))
      (fun _ after => machine.Follows [] after ∧
        (Multiplicands machine layer x output rows kind → ¬machine.Serves layer.device)) := by
  have grouping (ready : Multiplicands machine layer x output rows kind) :
      Grouping before.memory x output rows layer.spec.inFeatures 1 layer.spec.inFeatures kind := by
    have there := ready.later followed
    have wide := ready.features_lt
    refine ⟨there.has, there.dense.has, ready.kind_eq, ready.shape, ready.sound.features.1, by omega,
      (ceilDiv_self ready.sound.features.1 (by omega)).symm, ready.batch⟩
  refine (ends_quantizeGroups freshNumbers freshScales).mono (fun _ after ended => ?_)
    fun _ after failed => ⟨followed.trans failed.1, fun ready serves =>
      failed.2 (grouping ready) (ready.device ▸ serves.later followed)⟩
  refine ⟨followed.trans ended.1, fun ready standard measured => ?_⟩
  obtain ⟨quantized, scales⟩ := ended.2 (grouping ready)
  simp only [ready.number followed] at quantized scales
  -- one group makes up the whole row
  have whole (row : Nat) : Reference.measuredScale (0 * layer.spec.inFeatures.toNat)
      (min layer.spec.inFeatures.toNat
        (0 * layer.spec.inFeatures.toNat + layer.spec.inFeatures.toNat))
      (fun p => machine.memory.number x.toView kind [row, p]) =
      Reference.measuredScale 0 layer.spec.inFeatures.toNat
        (fun p => machine.memory.number x.toView kind [row, p]) := by
    rw [Nat.zero_mul, Nat.zero_add, Nat.min_self]
  refine ⟨.f32, fun row p => Reference.rounded (machine.memory.number x.toView kind [row, p] /
      Reference.measuredScale 0 layer.spec.inFeatures.toNat
        (fun p => machine.memory.number x.toView kind [row, p])),
    fun row => Reference.measuredScale 0 layer.spec.inFeatures.toNat
      (fun p => machine.memory.number x.toView kind [row, p]), ?_⟩
  refine
    { quantized := { quantized with
        device := quantized.device.trans ready.device
        numbers := fun row inRows p inColumns => ?_ }
      operand := scales.operand
      device := scales.device.trans ready.device
      count := .inr ?_
      scales := fun row inRows => ?_
      product := fun row _ j => ?_ }
  · rw [quantized.numbers row inRows p inColumns, Nat.div_eq_of_lt inColumns, whole]
  · rw [View.numel, scales.shape, Shape.numel_cons, Shape.numel_cons]
    exact UInt64.mul_one rows
  · rw [scales.operand.row scales.shape inRows, scales.numbers row inRows 0 Nat.one_pos, whole]
  · rw [Reference.product, show layer.spec.variant = .standard granularity from standard]
    simp only [measured, Bool.false_eq_true, if_false]
    rfl

/-- The kernel of single scales on the operands of a layer. -/
private theorem runScaledProduct_layer {scaleKind : FloatKind} {number : Nat → Nat → Binary32}
    {rowScale : Nat → Binary32} (ready : Multiplicands machine layer x output rows kind)
    (standard : layer.variant = .standard granularity) (followed : machine.Follows [] middle)
    (left : ScaledRows middle.memory layer (layer.numbers machine.memory) granularity output
      quantized scale rows (fun row p => machine.memory.number x.toView kind [row, p]) scaleKind
      number rowScale)
    (right : WeightColumns machine.memory layer (layer.numbers machine.memory) w)
    (rightScale : LayerScale machine.memory layer (layer.numbers machine.memory) .weight output
      weightScale) :
    ∃ after, Kernel.runScaledProduct output.toView quantized.toView scale.toView w.toView
        weightScale.toView middle.memory = .ok after ∧
      Multiplied machine layer x output rows kind after := by
  obtain ⟨weightKind, operand, same⟩ := (rightScale.later followed.memory).number
  have shape : weightScale.shape =
      if granularity = .channel then [layer.spec.outFeatures] else [1] := by
    rw [rightScale.shape, Layer.scaleShape, standard]
    cases granularity <;> rfl
  -- one scale for each channel, or one that serves them all
  have serving (j : Nat) (below : j < layer.spec.outFeatures.toNat) :
      middle.memory.scaleNumber weightScale.toView weightKind j =
        (layer.numbers machine.memory).scale .weight [if granularity = .channel then j else 0] := by
    rw [← same]
    split at shape
    · next channel => rw [if_pos channel, operand.channel shape below]
    · next other => rw [if_neg other, operand.single shape]
  have count : weightScale.numel = 1 ∨ weightScale.numel = layer.spec.outFeatures := by
    rw [View.numel, shape]
    split
    · exact .inr (UInt64.mul_one _)
    · exact .inl rfl
  obtain ⟨after, ran, entries⟩ := Kernel.runScaledProduct_spec
    (ready.factors followed left.quantized right) left.operand left.count operand count
  refine ⟨after, ran, fun row inRows j inColumns => ?_⟩
  rw [entries row inRows j inColumns, left.product row inRows, left.scales row inRows,
    serving j inColumns, Kernel.scaledEntry, accumulate_congr fun p _ inDepth => by
      rw [left.quantized.numbers row inRows p inDepth,
        (right.later followed.memory).numbers j inColumns p inDepth]]
  rfl

/-- The product of the quantized rows, however they were quantized, and the weight that was made ready
before. -/
private theorem ends_scaledRows {first later : Machine} (granularity : Granularity) (rows : UInt64)
    (kind : FloatKind) (arranged : machine.Follows [] first) (followed : first.Follows [] later)
    (right : Multiplicands machine layer x output rows kind →
      layer.variant = .standard granularity →
      WeightColumns first.memory layer (layer.numbers machine.memory) w)
    (rightScale : Multiplicands first layer x output rows kind → .weight ∈ layer.required →
      LayerScale first.memory layer (layer.numbers first.memory) .weight output weightScale)
    (left : Multiplicands machine layer x output rows kind → layer.variant = .standard granularity →
      layer.Divides machine.memory ∧
      ∃ scaleKind number rowScale, ScaledRows later.memory layer (layer.numbers first.memory)
        granularity output quantized scale rows
        (fun row p => first.memory.number x.toView kind [row, p]) scaleKind number rowScale) :
    (scaledProductInto (some output) (some quantized) (some scale) (some w)
        (some weightScale)).Ends later
      (fun _ after => machine.Follows [output.storage] after ∧
        (Multiplicands machine layer x output rows kind → layer.variant = .standard granularity →
          layer.Divides machine.memory ∧ Multiplied machine layer x output rows kind after.memory))
      (fun _ after => machine.Follows [] after ∧
        (Multiplicands machine layer x output rows kind → layer.variant = .standard granularity →
          machine.Serves layer.device → ¬layer.Divides machine.memory)) := by
  have whole := arranged.trans followed
  refine ((ends_scaledProductInto output quantized scale w weightScale later).ofRun
    (Multiplied first layer x output rows kind)
    fun able : Multiplicands machine layer x output rows kind ∧
      layer.variant = .standard granularity => ?_).mono
    (fun _ after ended => ⟨whole.trans ended.1, fun ready standard =>
      ⟨(left ready standard).1, (ended.2 ⟨ready, standard⟩).since ready arranged⟩⟩)
    fun _ after failed => ⟨whole.trans failed.1, fun ready standard serves =>
      absurd (ready.outputDevice ▸ serves.later whole) (failed.2 ⟨ready, standard⟩)⟩
  obtain ⟨ready, standard⟩ := able
  obtain ⟨-, scaleKind, number, rowScale, rowsReady⟩ := left ready standard
  have columns := right ready standard
  -- The weight was made ready before the first operand, the numbers of the layer are as they were.
  rw [← Layer.numbers_later ready.held arranged.memory] at columns
  have channels := rightScale (ready.later arranged) (LayerSpec.weight_required standard)
  refine ⟨?_, runScaledProduct_layer (ready.later arranged) standard followed rowsReady columns
    channels⟩
  simp [ready.outputDevice, rowsReady.quantized.device, rowsReady.device, columns.device,
    channels.device]

end Standard

/-- Multiplying with one weight scale or one for each output channel. -/
theorem ends_multiplyStandard (layer : Layer) (granularity : Granularity) (x output : Tensor)
    (rows : UInt64) (kind : FloatKind) (machine : Machine) :
    (layer.multiplyStandard x output).Ends machine
      (fun _ after => machine.Follows [output.storage] after ∧
        (Multiplicands machine layer x output rows kind → layer.variant = .standard granularity →
          layer.Divides machine.memory ∧ Multiplied machine layer x output rows kind after.memory))
      (fun _ after => machine.Follows [] after ∧
        (Multiplicands machine layer x output rows kind → layer.variant = .standard granularity →
          machine.Serves layer.device → ¬layer.Divides machine.memory)) := by
  have weight (standard : layer.variant = .standard granularity) : .weight ∈ layer.required :=
    LayerSpec.weight_required standard
  have input (standard : layer.variant = .standard granularity)
      (given : layer.spec.staticActivation = true) : .input ∈ layer.required :=
    LayerSpec.input_required standard given
  have plain (standard : layer.variant = .standard granularity) : layer.variant ≠ .packed := by
    rw [standard]
    exact Variant.noConfusion
  simp only [Layer.multiplyStandard, ends_bind]
  refine (ends_weightColumns layer x output rows kind machine).mono (fun operand first columns => ?_)
    fun _ after failed => ⟨failed.1, fun ready standard serves =>
      absurd serves (failed.2 ready (plain standard))⟩
  -- from here on everything is relative to the machine with the weight made ready
  have base (ready : Multiplicands machine layer x output rows kind) := ready.later columns.1
  have numbers (ready : Multiplicands machine layer x output rows kind) :
      layer.numbers first.memory = layer.numbers machine.memory :=
    Layer.numbers_later ready.held columns.1.memory
  refine (ends_layerScale first first layer .weight x output rows kind).mono
    (fun weightScale second weightRead => ?_) fun _ after failed =>
      ⟨columns.1.trans failed.1, fun ready standard =>
        absurd (weight standard) (failed.2 (base ready))⟩
  refine (ends_allocateTensor _ _ x.device second).mono (fun quantized third fresh => ?_)
    fun _ after failed => ⟨(columns.1.trans weightRead.1).trans failed.1, fun ready _ serves =>
      absurd (ready.device ▸ serves.later (columns.1.trans weightRead.1)) failed.2⟩
  simp only [ends_ite, ends_bind, ends_pure]
  have placed := weightRead.1.trans fresh.follows
  have right (ready : Multiplicands machine layer x output rows kind)
      (standard : layer.variant = .standard granularity) := columns.2 ready (plain standard)
  constructor
  · -- with the scale that was given, which must divide
    intro given
    refine (ends_layerScale first third layer .input x output rows kind).mono
      (fun scale fourth inputRead => ?_) fun _ after failed =>
        ⟨(columns.1.trans placed).trans failed.1, fun ready standard =>
          absurd (input standard given) (failed.2 (base ready))⟩
    refine (ends_quantizeStatic granularity output rows kind weightRead.1
      (fresh.keep inputRead.1)).mono
      (fun _ after ended => ends_scaledRows granularity rows kind columns.1 ended.1 right
        weightRead.2 fun ready standard => ?_)
      fun _ after failed => ⟨columns.1.trans failed.1, fun ready standard serves divides => ?_⟩
    · obtain ⟨divides, rowsReady⟩ := ended.2 (base ready)
        (inputRead.2 (base ready) (input standard given)) standard given
      rw [numbers ready] at divides
      exact ⟨fun _ _ => divides, rowsReady⟩
    · refine failed.2 (base ready) (inputRead.2 (base ready) (input standard given))
        (serves.later columns.1) ?_
      rw [numbers ready]
      exact divides ⟨granularity, standard⟩ given
  · -- with scales that are measured, one for each row
    intro measured
    refine (ends_allocateTensor _ _ x.device third).mono (fun scale fourth freshScales => ?_)
      fun _ after failed => ⟨(columns.1.trans placed).trans failed.1, fun ready _ serves =>
        absurd (ready.device ▸ serves.later (columns.1.trans placed)) failed.2⟩
    refine (ends_quantizeDynamic granularity output rows kind weightRead.1 fresh freshScales).mono
      (fun _ after ended => ends_scaledRows granularity rows kind columns.1 ended.1 right
        weightRead.2 fun ready standard => ⟨?_, ?_⟩)
      fun _ after failed => ⟨columns.1.trans failed.1, fun ready _ serves =>
        absurd (serves.later columns.1) (failed.2 (base ready))⟩
    · exact fun _ given => absurd given measured
    · exact ended.2 (base ready) standard (by simpa using measured)

section Blocks

variable {machine middle : Machine} {layer : Layer} {x output quantized scale w weightScale : Tensor}
  {rows blockRows blockColumns : UInt64} {kind : FloatKind}

/-- The kernel of block scales on the operands of a layer. -/
private theorem runBlockScaledProduct_layer (ready : Multiplicands machine layer x output rows kind)
    (blocks : layer.variant = .block blockRows blockColumns) (followed : machine.Follows [] middle)
    (left : QuantizedRows middle.memory quantized rows layer.spec.inFeatures layer.device
      fun row p => Reference.rounded (machine.memory.number x.toView kind [row, p] /
        Reference.measuredScale (p / blockColumns.toNat * blockColumns.toNat)
          (min layer.spec.inFeatures.toNat
            (p / blockColumns.toNat * blockColumns.toNat + blockColumns.toNat))
          fun p => machine.memory.number x.toView kind [row, p]))
    (leftScale : GroupScales middle.memory output scale rows
      (ceilDiv layer.spec.inFeatures blockColumns) layer.device fun row group =>
        Reference.measuredScale (group * blockColumns.toNat)
          (min layer.spec.inFeatures.toNat (group * blockColumns.toNat + blockColumns.toNat))
          fun p => machine.memory.number x.toView kind [row, p])
    (right : WeightColumns machine.memory layer (layer.numbers machine.memory) w)
    (rightScale : LayerScale machine.memory layer (layer.numbers machine.memory) .weightInverse
      output weightScale) :
    ∃ after, Kernel.runBlockScaledProduct output.toView quantized.toView scale.toView w.toView
        weightScale.toView blockRows blockColumns middle.memory = .ok after ∧
      Multiplied machine layer x output rows kind after := by
  obtain ⟨weightKind, operand, same⟩ := (rightScale.later followed.memory).number
  obtain ⟨someRows, someColumns⟩ := LayerSpec.block_ne_zero blocks
  have columnsFit := ready.fits.columns blockRows blockColumns blocks
  have shape : weightScale.shape = [ceilDiv layer.spec.outFeatures blockRows,
      ceilDiv layer.spec.inFeatures blockColumns] := by
    rw [rightScale.shape, Layer.scaleShape, blocks]
    rfl
  obtain ⟨after, ran, entries⟩ := Kernel.runBlockScaledProduct_spec
    (ready.factors followed left right) (fun _ => leftScale.operand.kind_eq)
    leftScale.operand.packed leftScale.shape (fun _ => operand.kind_eq) operand.packed shape someRows
    (ready.fits.rows blockRows blockColumns blocks)
  refine ⟨after, ran, fun row inRows j inColumns => ?_⟩
  rw [entries row inRows j inColumns, Reference.product,
    show layer.spec.variant = .block blockRows blockColumns from blocks]
  simp only [Reference.blocks, ← toNat_ceilDiv someColumns columnsFit, Kernel.blockEntry]
  -- the same blocks in the same order, and in each the same terms
  refine congrArg kind.encode (accumulate_congr fun block _ below => ?_)
  obtain ⟨range, -⟩ := chunkRange_eq someColumns columnsFit below
  simp only [range, leftScale.numbers row inRows block below, same]
  refine congrArg (· * _ * _) (accumulate_congr fun p above inChunk => ?_)
  have inDepth : p < layer.spec.inFeatures.toNat := Nat.lt_of_lt_of_le inChunk (Nat.min_le_left ..)
  have mine : p / blockColumns.toNat = block :=
    Nat.div_eq_of_lt_le above (by rw [Nat.succ_mul]; omega)
  rw [left.numbers row inRows p inDepth, (right.later followed.memory).numbers j inColumns p inDepth,
    mine]

end Blocks

/-- Multiplying with a weight scale for each block. -/
theorem ends_multiplyBlocks (layer : Layer) (blockRows blockColumns : UInt64) (x output : Tensor)
    (rows : UInt64) (kind : FloatKind) (machine : Machine) :
    (layer.multiplyBlocks blockRows blockColumns x output).Ends machine
      (fun _ after => machine.Follows [output.storage] after ∧
        (Multiplicands machine layer x output rows kind →
          layer.variant = .block blockRows blockColumns →
          Multiplied machine layer x output rows kind after.memory))
      (fun _ after => machine.Follows [] after ∧
        (Multiplicands machine layer x output rows kind →
          layer.variant = .block blockRows blockColumns → ¬machine.Serves layer.device)) := by
  have required (blocks : layer.variant = .block blockRows blockColumns) :
      .weightInverse ∈ layer.required := LayerSpec.weightInverse_required blocks
  have plain (blocks : layer.variant = .block blockRows blockColumns) : layer.variant ≠ .packed := by
    rw [blocks]
    exact Variant.noConfusion
  simp only [Layer.multiplyBlocks, ends_bind]
  refine (ends_weightColumns layer x output rows kind machine).mono (fun operand first columns => ?_)
    fun _ after failed => ⟨failed.1, fun ready blocks => failed.2 ready (plain blocks)⟩
  -- from here on everything is relative to the machine with the weight made ready
  have base (ready : Multiplicands machine layer x output rows kind) := ready.later columns.1
  have numbers (ready : Multiplicands machine layer x output rows kind) :
      layer.numbers first.memory = layer.numbers machine.memory :=
    Layer.numbers_later ready.held columns.1.memory
  refine (ends_layerScale first first layer .weightInverse x output rows kind).mono
    (fun weightScale second read => ?_) fun _ after failed =>
      ⟨columns.1.trans failed.1, fun ready blocks =>
        absurd (required blocks) (failed.2 (base ready))⟩
  refine (ends_allocateTensor _ _ x.device second).mono (fun quantized third fresh => ?_)
    fun _ after failed => ⟨(columns.1.trans read.1).trans failed.1, fun ready _ serves =>
      absurd (ready.device ▸ serves.later (columns.1.trans read.1)) failed.2⟩
  have placed := read.1.trans fresh.follows
  refine (ends_allocateTensor _ _ x.device third).mono (fun scale fourth freshScales => ?_)
    fun _ after failed => ⟨(columns.1.trans placed).trans failed.1, fun ready _ serves =>
      absurd (ready.device ▸ serves.later (columns.1.trans placed)) failed.2⟩
  have grouping (ready : Multiplicands machine layer x output rows kind)
      (blocks : layer.variant = .block blockRows blockColumns) :
      Grouping second.memory x output rows layer.spec.inFeatures
        (ceilDiv layer.spec.inFeatures blockColumns) blockColumns kind := by
    have there := (base ready).later read.1
    exact ⟨there.has, there.dense.has, ready.kind_eq, ready.shape,
      (LayerSpec.block_ne_zero blocks).2, ready.fits.columns blockRows blockColumns blocks, rfl,
      ready.batch⟩
  refine (ends_quantizeGroups fresh freshScales).mono (fun _ fifth groups => ?_)
    fun _ after failed => ⟨(columns.1.trans read.1).trans failed.1, fun ready blocks serves =>
      failed.2 (grouping ready blocks) (ready.device ▸ serves.later (columns.1.trans read.1))⟩
  have whole := read.1.trans groups.1
  refine ((ends_blockScaledProductInto output quantized scale operand.tensor weightScale blockRows
    blockColumns fifth).ofRun (Multiplied first layer x output rows kind)
    fun able : Multiplicands machine layer x output rows kind ∧
      layer.variant = .block blockRows blockColumns => ?_).mono
    (fun _ after ended => ⟨(columns.1.trans whole).trans ended.1, fun ready blocks =>
      (ended.2 ⟨ready, blocks⟩).since ready columns.1⟩)
    fun _ after failed => ⟨(columns.1.trans whole).trans failed.1, fun ready blocks serves =>
      failed.2 ⟨ready, blocks⟩ (ready.outputDevice ▸ serves.later (columns.1.trans whole))⟩
  obtain ⟨ready, blocks⟩ := able
  obtain ⟨left, leftScale⟩ := groups.2 (grouping ready blocks)
  have rightScale := read.2 (base ready) (required blocks)
  have right := columns.2 ready (plain blocks)
  rw [← numbers ready] at right
  rw [ready.device] at left leftScale
  simp only [(base ready).number read.1] at left leftScale
  refine ⟨⟨?_, LayerSpec.block_ne_zero blocks⟩,
    runBlockScaledProduct_layer (base ready) blocks whole left leftScale right rightScale⟩
  simp [ready.outputDevice, left.device, leftScale.device, right.device, rightScale.device]

end QuantLinear
