import QuantLinear.Proofs.Forward.Multiply

/-!
The product of a materialized layer with activations, from their shape to the shape of the output.

The bias is added to what the multiplication stored, one entry at a time, and the matrix of rows is
read again in the shape of the activations.
-/

namespace QuantLinear

open QuantLinear.Action

section Bias

variable {first machine : Machine} {layer : Layer} {x output : Tensor} {rows : UInt64}
  {kind : FloatKind}

theorem ends_addBias (x : Tensor) (rows : UInt64) (kind : FloatKind)
    (followed : first.Follows [output.storage] machine) :
    (layer.addBias output).Ends machine
      (fun _ after => first.Follows [output.storage] after ∧
        (Multiplicands first layer x output rows kind → ∀ row < rows.toNat,
          ∀ j < layer.spec.outFeatures.toNat, after.memory.load output.toView [row, j] =
            Reference.biased (layer.numbers first.memory) kind
              (machine.memory.load output.toView [row, j]) j))
      (fun _ after => first.Follows [output.storage] after ∧
        (Multiplicands first layer x output rows kind → ¬first.Serves layer.device)) := by
  rw [Layer.addBias]
  cases present : layer.bias with
  | none =>
    refine ⟨followed, fun _ row _ j _ => ?_⟩
    simp only [Reference.biased, Layer.numbers, present, Option.map_none]
  | some bias =>
    have plain : bias.toView.restride [output.extent 0, layer.spec.outFeatures] [0, bias.stride 0] =
        .ok { bias.toView with
          shape := [output.extent 0, layer.spec.outFeatures], strides := [0, bias.stride 0] } := rfl
    simp only [plain, ends_bind, ends_ok]
    refine (ends_share _ machine).mono (fun repeated middle shared => ?_) fun _ _ none => none.elim
    obtain ⟨kept, view, memory⟩ := shared
    have whole : first.Follows [output.storage] middle := followed.trans kept
    -- the bias is read as a matrix with the same row everywhere
    refine ((ends_addInto output repeated middle).ofRun (fun after => ∀ row < rows.toNat,
      ∀ j < layer.spec.outFeatures.toNat, after.load output.toView [row, j] =
        Reference.biased (layer.numbers first.memory) kind
          (machine.memory.load output.toView [row, j]) j)
      fun ready : Multiplicands first layer x output rows kind => ?_).mono
      (fun _ after ended => ⟨whole.same ended.1, ended.2⟩) fun _ after failed =>
        ⟨whole.trans failed.1, fun ready serves =>
          failed.2 ready (ready.outputDevice ▸ serves.later whole)⟩
    obtain ⟨shape, wide, home⟩ := ready.sound.bias bias present
    obtain ⟨biasKind, float⟩ :=
      ElementKind.float_of_isFloating (ElementKind.isFloating_of_isWideFloating wide)
    have there := ready.held.bias bias present
    have apart := ready.biasApart bias present
    have extent := (View.extent_pair ready.outputShape).1
    have lasting : middle.memory.Has repeated.toView := by
      rw [view]
      exact ⟨rfl, (there.later whole.memory).stored⟩
    obtain ⟨after, ran, entries⟩ := Kernel.runAdd_spec (ready.dense.later whole.memory)
      ready.outputKind lasting (by rw [view]; exact float) (by rw [view]; exact apart)
    refine ⟨⟨by rw [view, ready.outputDevice, home], by rw [view, extent, ready.outputShape]⟩, after,
      ran, fun row inRows j inColumns => ?_⟩
    have stored : middle.memory.load output.toView [row, j] =
        machine.memory.load output.toView [row, j] := by rw [memory]
    have strides : bias.strides = [bias.stride 0] := by
      obtain ⟨stride, only⟩ := List.length_eq_one_iff.mp (by rw [there.rank, shape]; rfl)
      simp [View.stride, only]
    have number : middle.memory.number repeated.toView biasKind [row, j] =
        first.memory.number bias.toView biasKind [j] := by
      rw [Memory.number, view, Memory.load_repeated _ strides,
        whole.memory.load there.stored (by simpa using apart), Memory.number]
    rw [entries [row, j] (by rw [ready.outputShape]; exact Shape.within_of_lt inRows inColumns),
      number, Memory.number, stored]
    simp only [Reference.biased, Layer.numbers, present, Option.map_some, Memory.numberAt_eq float]

end Bias

/-- A materialized layer and activations that it multiplies. -/
structure Prepared (machine : Machine) (layer : Layer) (activation : Tensor) (lead : Shape)
    (kind : FloatKind) : Prop where
  sound : layer.Sound
  ready : layer.materialized = true
  held : layer.Held machine.memory
  fits : layer.spec.Fits
  has : machine.memory.Has activation.toView
  kind_eq : activation.kind = .float kind
  wide : activation.kind.isWideFloating = true
  shape : activation.shape = lead ++ [layer.spec.inFeatures]
  device : activation.device = layer.device
  bytes : activation.shape.count * activation.kind.size < 2 ^ 63
  outputBytes : Shape.count (lead ++ [layer.spec.outFeatures]) * activation.kind.size < 2 ^ 63

/-- The output of a layer for activations: its entries are those of the reference, wherever they
lie. -/
structure Produced (before : Memory) (layer : Layer) (activation result : Tensor) (lead : Shape)
    (kind : FloatKind) (after : Memory) : Prop where
  shape : result.shape = lead ++ [layer.spec.outFeatures]
  kind_eq : result.kind = activation.kind
  device : result.device = layer.device
  packed : result.isContiguous = true
  words : ∀ index, lead.Within index → ∀ j < layer.spec.outFeatures.toNat,
    after.load result.toView (index ++ [j]) =
      Reference.output (layer.numbers before) layer.spec kind
        (fun p => before.number activation.toView kind (index ++ [p])) j

private theorem FloatKind.two_le_size {kind : FloatKind}
    (wide : (ElementKind.float kind).isWideFloating = true) :
    2 ≤ (ElementKind.float kind).size := by
  cases kind with
  | f8 => cases wide
  | _ => decide

/-- Activations made ready and a new output are what a layer multiplies. -/
private theorem Prepared.multiplicands {machine first placed : Machine} {layer : Layer}
    {activation x output : Tensor} {lead : Shape} {kind : FloatKind}
    (ready : Prepared machine layer activation lead kind) (followed : machine.Follows [] first)
    (kindSame : x.kind = activation.kind) (home : x.device = activation.device)
    (there : first.memory.Has x.toView)
    (rows : ReadyRows machine activation x lead layer.spec.inFeatures first)
    (fresh : Fresh first activation.kind [x.extent 0, layer.spec.outFeatures] layer.device output
      placed) :
    Multiplicands placed layer x output (x.extent 0) kind := by
  obtain ⟨batch, shape, count⟩ := rows.batch
  have extent := (View.extent_pair shape).1
  have held := ready.held.later followed.memory
  have wide := ready.wide
  rw [ready.kind_eq] at wide
  have size := FloatKind.two_le_size wide
  have bytes := ready.bytes
  have outputBytes := ready.outputBytes
  -- both byte counts in the number of rows, so that the bounds below are linear
  rw [ready.shape, ready.kind_eq, Shape.count_append, ← count] at bytes
  rw [ready.kind_eq, Shape.count_append, ← count] at outputBytes
  exact
    { sound := ready.sound
      ready := ready.ready
      held := held.later fresh.follows.memory
      fits := ready.fits
      batch := by
        rw [extent]
        have twice := Nat.mul_le_mul_left (batch.toNat * layer.spec.inFeatures.toNat) size
        omega
      scalesApart := fun role scale found => fresh.apart (held.scales role scale found)
      biasApart := fun bias present => fresh.apart (held.bias bias present)
      dense := fresh.dense (by
        rw [extent, ready.kind_eq, Shape.count_pair]
        omega)
      outputKind := fresh.kind_eq.trans ready.kind_eq
      outputShape := fresh.shape_eq
      outputDevice := fresh.device_eq
      has := there.later fresh.follows.memory
      kind_eq := kindSame.trans ready.kind_eq
      wide := by rw [kindSame]; exact ready.wide
      shape := by rw [extent, shape]
      layout := rows.layout
      device := home.trans ready.device
      apart := fresh.apart there }

private theorem Shape.numel_congr {shape other : Shape} (same : shape.count = other.count) :
    shape.numel = other.numel := by
  apply UInt64.toNat_inj.mp
  rw [toNat_numel, toNat_numel, same]

/-- A matrix of rows read again in the shape of the activations. -/
private theorem Memory.load_result {mem : Memory} {output result : View} {lead : Shape}
    {rows columns : UInt64}
    (dense : mem.Dense output) (matrix : output.shape = [rows, columns]) (count : rows.toNat = lead.count)
    (view : result = { output with
      shape := lead ++ [columns], strides := Shape.contiguousStrides (lead ++ [columns]) })
    {index : Index} {j : Nat} (inside : lead.Within index) (below : j < columns.toNat) :
    mem.load result (index ++ [j]) = mem.load output [lead.placeOf index, j] := by
  have there : mem.Has result := by
    rw [view]
    exact ⟨Shape.length_contiguousStrides _, dense.stored⟩
  have packed : result.isContiguous = true := by
    rw [view]
    exact Shape.isContiguous_contiguousStrides _
  have same : output = { result with
      shape := [rows, columns], strides := Shape.contiguousStrides [rows, columns] } := by
    rw [view, ← matrix, ← dense.strides]
  have read := mem.load_reshape there packed (by rw [view]) count.symm inside below
  rw [← same] at read
  exact read.symm

/-- Activations made ready between two machines, next to a new output for them. -/
structure Placed (machine : Machine) (layer : Layer) (activation x output : Tensor) (lead : Shape)
    (kind : FloatKind) (placed : Machine) : Prop where
  follows : machine.Follows [] placed
  new : machine.memory.next ≤ output.storage
  kind_eq : output.kind = activation.kind
  device : output.device = layer.device
  shape : output.shape = [x.extent 0, layer.spec.outFeatures]
  packed : output.isContiguous = true
  operands : Prepared machine layer activation lead kind →
    Multiplicands placed layer x output (x.extent 0) kind
  count : Prepared machine layer activation lead kind → (x.extent 0).toNat = lead.count
  numbers : Prepared machine layer activation lead kind → ∀ index p, lead.Within index →
    p < layer.spec.inFeatures.toNat → placed.memory.number x.toView kind [lead.placeOf index, p] =
      machine.memory.number activation.toView kind (index ++ [p])

section Output

variable {machine first placed later : Machine} {layer : Layer} {activation x output : Tensor}
  {lead : Shape} {kind : FloatKind}

private theorem Fresh.placedFor (followed : machine.Follows [] first)
    (kindSame : x.kind = activation.kind)
    (home : x.device = activation.device)
    (there : machine.memory.Has activation.toView → first.memory.Has x.toView)
    (rows : Prepared machine layer activation lead kind →
      ReadyRows machine activation x lead layer.spec.inFeatures first)
    (fresh : Fresh first activation.kind [x.extent 0, layer.spec.outFeatures] layer.device output
      placed) : Placed machine layer activation x output lead kind placed where
  follows := followed.trans fresh.follows
  new := by
    rw [fresh.storage]
    exact followed.memory.grows
  kind_eq := fresh.kind_eq
  device := fresh.device_eq
  shape := fresh.shape_eq
  packed := fresh.isContiguous
  operands ready :=
    ready.multiplicands followed kindSame home (there ready.has) (rows ready) fresh
  count ready := by
    obtain ⟨batch, shape, count⟩ := (rows ready).batch
    rw [(View.extent_pair shape).1, count]
  numbers ready index p inside inDepth := by
    rw [fresh.follows.memory.number (there ready.has) List.not_mem_nil, Memory.number,
      (rows ready).words ready.has index p inside inDepth, Memory.number]

namespace Placed

private theorem layerNumbers (ready : Placed machine layer activation x output lead kind placed)
    (prepared : Prepared machine layer activation lead kind) :
    layer.numbers placed.memory = layer.numbers machine.memory :=
  Layer.numbers_later prepared.held ready.follows.memory

/-- Work that writes to the output alone changes nothing that was there before. -/
private theorem thenWritten (ready : Placed machine layer activation x output lead kind placed)
    (written : placed.Follows [output.storage] later) : machine.Follows [] later :=
  ready.follows.thenFresh written (by simpa using ready.new)

/-- The output reads as a tensor with the leading axes of the activations. -/
private theorem reshape_output (ready : Placed machine layer activation x output lead kind placed)
    (prepared : Prepared machine layer activation lead kind) :
    output.toView.reshape (activation.shape.dropLast ++ [layer.spec.outFeatures]) =
      .ok { output.toView with
        shape := lead ++ [layer.spec.outFeatures]
        strides := Shape.contiguousStrides (lead ++ [layer.spec.outFeatures]) } := by
  have count : Shape.count (lead ++ [layer.spec.outFeatures]) = output.shape.count := by
    rw [ready.shape, Shape.count_append, Shape.count_pair, ready.count prepared]
  rw [prepared.shape, List.dropLast_concat]
  exact View.reshape_eq_ok.mpr ⟨⟨ready.packed, Shape.numel_congr count⟩, rfl⟩

/-- What was multiplied is the output of the reference once the bias is added. -/
theorem produced (ready : Placed machine layer activation x output lead kind placed)
    (prepared : Prepared machine layer activation lead kind) {after : Memory} {result : Tensor}
    (written : placed.memory.Evolves [output.storage] after)
    (multiplied : ∀ row < (x.extent 0).toNat, ∀ j < layer.spec.outFeatures.toNat,
      after.load output.toView [row, j] = Reference.biased (layer.numbers placed.memory) kind
        (kind.encode (Reference.product (layer.numbers placed.memory) layer.spec
          (fun p => placed.memory.number x.toView kind [row, p]) j)) j)
    (view : result.toView = { output.toView with
      shape := lead ++ [layer.spec.outFeatures]
      strides := Shape.contiguousStrides (lead ++ [layer.spec.outFeatures]) }) :
    Produced machine.memory layer activation result lead kind after where
  shape := by rw [view]
  kind_eq := by
    rw [view]
    exact ready.kind_eq
  device := by
    rw [view]
    exact ready.device
  packed := by
    rw [view]
    exact Shape.isContiguous_contiguousStrides _
  words index inside j below := by
    -- The row of the matrix is the place of the leading index in row-major order.
    have row : lead.placeOf index < (x.extent 0).toNat := by
      rw [ready.count prepared]
      exact Shape.placeOf_lt inside
    have read := Memory.load_result ((ready.operands prepared).dense.later written) ready.shape
      (ready.count prepared) view inside below
    rw [read, multiplied _ row j below, ready.layerNumbers prepared, Reference.output,
      Reference.product_congr fun p inDepth => ready.numbers prepared index p inside inDepth]

end Placed

/-- What follows a multiplication, whichever it was. -/
private theorem ends_output (ready : Placed machine layer activation x output lead kind placed)
    (written : placed.Follows [output.storage] later)
    (multiplied : Multiplicands placed layer x output (x.extent 0) kind →
      layer.Divides placed.memory ∧
        Multiplied placed layer x output (x.extent 0) kind later.memory) :
    Ends (do
      layer.addBias output
      let view ← output.toView.reshape (activation.shape.dropLast ++ [layer.spec.outFeatures])
      share view) later
      (fun result after => machine.Follows [] after ∧
        (Prepared machine layer activation lead kind → layer.Divides machine.memory ∧
          Produced machine.memory layer activation result lead kind after.memory))
      (fun _ after => machine.Follows [] after ∧
        (Prepared machine layer activation lead kind → machine.Serves layer.device →
          ¬layer.Divides machine.memory)) := by
  simp only [ends_bind]
  refine (ends_addBias x (x.extent 0) kind written).mono (fun _ after added => ?_)
    fun _ after failed => ⟨ready.thenWritten failed.1, fun prepared serves =>
      absurd (serves.later ready.follows) (failed.2 (ready.operands prepared))⟩
  have finished := ready.thenWritten added.1
  rw [ends_lift]
  refine ⟨fun view reshaped => ?_, fun fault failed => ⟨finished, fun prepared _ => ?_⟩⟩
  · refine (ends_share _ after).mono (fun result last shared => ?_) fun _ _ none => none.elim
    obtain ⟨kept, shown, memory⟩ := shared
    refine ⟨finished.trans kept, fun prepared => ?_⟩
    cases (ready.reshape_output prepared).symm.trans reshaped
    have operands := ready.operands prepared
    obtain ⟨divides, entries⟩ := multiplied operands
    rw [Layer.Divides, ready.layerNumbers prepared] at divides
    refine ⟨divides, ready.produced prepared (memory ▸ added.1.memory)
      (fun row inRows j inColumns => ?_) shown⟩
    rw [memory, added.2 operands row inRows j inColumns, entries row inRows j inColumns]
  · -- the output has as many elements in either shape
    cases (ready.reshape_output prepared).symm.trans failed

end Output

/-- The product of a layer with activations changes no tensor that was there before. On activations
that a served layer multiplies it is the output of the reference, unless their given scale is no
divisor. -/
theorem ends_product (layer : Layer) (activation : Tensor) (lead : Shape) (kind : FloatKind)
    (machine : Machine) :
    (layer.product activation).Ends machine
      (fun result after => machine.Follows [] after ∧
        (Prepared machine layer activation lead kind → layer.Divides machine.memory ∧
          Produced machine.memory layer activation result lead kind after.memory))
      (fun _ after => machine.Follows [] after ∧
        (Prepared machine layer activation lead kind → machine.Serves layer.device →
          ¬layer.Divides machine.memory)) := by
  simp only [Layer.product, ends_bind]
  refine (ends_normalizedActivation activation machine).mono (fun operand first made => ?_)
    fun _ after failed => ⟨failed.1, fun ready serves =>
      absurd (Shape.count_lt_of_bytes (Nat.lt_trans ready.bytes (by decide)))
        (failed.2 (ready.device ▸ serves) lead _ ready.shape ready.sound.features.1)⟩
  obtain ⟨followed, kindSame, home, -, there, rows⟩ := made
  refine (ends_allocateTensor _ activation.kind layer.device first).mono
    (fun output placed fresh => ?_) fun _ after failed => ⟨followed.trans failed.1,
      fun _ serves => absurd (serves.later followed) failed.2⟩
  have ready : Placed machine layer activation operand.tensor output lead kind placed :=
    fresh.placedFor followed kindSame home there fun prepared =>
      have bytes := Nat.lt_trans prepared.bytes (by decide)
      rows lead _ prepared.shape prepared.sound.features.1 (Shape.count_lt_of_bytes bytes) fun _ => bytes
  have final (later : Machine) (written : placed.Follows [output.storage] later)
      (multiplied : Multiplicands placed layer operand.tensor output (operand.tensor.extent 0) kind →
        layer.Divides placed.memory ∧
        Multiplied placed layer operand.tensor output (operand.tensor.extent 0) kind later.memory) :=
    ends_output ready written multiplied
  simp only [ends_bind] at final
  -- only a layer with single scales takes one for the activations, so no other can fail to divide
  cases found : layer.variant with
  | standard granularity =>
    simp only [ends_bind]
    refine (ends_multiplyStandard layer granularity operand.tensor output (operand.tensor.extent 0)
      kind placed).mono (fun _ later done => final later done.1 fun able => done.2 able found)
      fun _ after failed => ⟨ready.follows.trans failed.1, fun prepared serves => ?_⟩
    rw [Layer.Divides, ← ready.layerNumbers prepared]
    exact failed.2 (ready.operands prepared) found (serves.later ready.follows)
  | block rows columns =>
    simp only [ends_bind]
    refine (ends_multiplyBlocks layer rows columns operand.tensor output (operand.tensor.extent 0)
      kind placed).mono (fun _ later done => final later done.1 fun able => ⟨?_, done.2 able found⟩)
      fun _ after failed => ⟨ready.follows.trans failed.1, fun prepared serves =>
        absurd (serves.later ready.follows) (failed.2 (ready.operands prepared) found)⟩
    rintro ⟨granularity, standard⟩
    cases found.symm.trans standard
  | packed =>
    simp only [ends_bind]
    refine (ends_multiplyPacked layer operand.tensor output (operand.tensor.extent 0) kind
      placed).mono (fun _ later done => final later done.1 fun able => ⟨?_, done.2 able found⟩)
      fun _ after failed => ⟨ready.follows.trans failed.1, fun prepared serves =>
        absurd (serves.later ready.follows) (failed.2 (ready.operands prepared) found)⟩
    rintro ⟨granularity, standard⟩
    cases found.symm.trans standard

end QuantLinear
