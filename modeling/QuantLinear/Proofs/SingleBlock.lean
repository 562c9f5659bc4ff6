import QuantLinear.Proofs.EndToEnd
import QuantLinear.Proofs.Numeric.SameNumber

/-!
Layers whose weight is a single block.

A block as large as the weight makes for one scale, as a layer has whose weight is not cut at all. The
two layers quantize in groups of different sizes and multiply with different kernels, but each group
is a whole row for both, and the one block is added to a sum that starts at zero. So their outputs are
the same numbers, and differ at most in the sign of zero and in the payload of a NaN.
-/

namespace QuantLinear

/-- A layer whose weight is one block next to a layer whose weight is not cut, of the same features. -/
structure LayerSpec.OneBlock (spec other : LayerSpec) (rows columns : UInt64) : Prop where
  blocks : spec.variant = .block rows columns
  whole : other.variant = .standard .tensor
  measured : other.staticActivation = false
  outFeatures : other.outFeatures = spec.outFeatures
  inFeatures : other.inFeatures = spec.inFeatures
  tall : spec.outFeatures ≤ rows
  wide : spec.inFeatures ≤ columns

/-- The numbers of two such layers, wherever they look: the same weight, one scale and the same
bias. -/
structure LayerNumbers.OneBlock (spec : LayerSpec) (a b : LayerNumbers) : Prop where
  weight : ∀ j < spec.outFeatures.toNat, ∀ p < spec.inFeatures.toNat, a.weight j p = b.weight j p
  scale : a.scale .weightInverse [0, 0] = b.scale .weight [0]
  bias : ∀ j < spec.outFeatures.toNat, a.bias.map (· j) = b.bias.map (· j)

namespace Reference

variable {a b : LayerNumbers} {depth j : Nat} {x : Nat → Binary32}

/-- Where one block covers the weight, its term is added to zero. -/
private theorem blocks_single {blockRows blockColumns : Nat} (some : 0 < depth) (tall : j < blockRows)
    (wide : depth ≤ blockColumns) (weight : ∀ p < depth, a.weight j p = b.weight j p)
    (scale : a.scale .weightInverse [0, 0] = b.scale .weight [0]) :
    blocks a depth x j blockRows blockColumns = 0 + dynamic b depth x j 0 := by
  have single : (depth + blockColumns - 1) / blockColumns = 1 :=
    Nat.div_eq_of_lt_le (by omega) (by omega)
  have first : j / blockRows = 0 := Nat.div_eq_of_lt tall
  have columns : min depth (0 + blockColumns) = depth := by omega
  have terms : sum 0 depth (fun p => rounded (x p / measuredScale 0 depth x) * a.weight j p) =
      sum 0 depth (fun p => rounded (x p / measuredScale 0 depth x) * b.weight j p) :=
    sum_congr fun p _ below => by rw [weight p below]
  calc blocks a depth x j blockRows blockColumns
      = 0 + sum 0 depth (fun p => rounded (x p / measuredScale 0 depth x) * a.weight j p) *
          measuredScale 0 depth x * a.scale .weightInverse [0, 0] := by
        -- the loop over the blocks runs once, and its chunk is the whole row
        rw [blocks, single, sum, Nat.sub_zero, List.range'_one, List.foldl_cons, List.foldl_nil]
        simp only [Nat.zero_mul, columns, first]
    _ = 0 + dynamic b depth x j 0 := by rw [terms, scale, dynamic]

/-- A bias keeps words of the same number what they are. -/
private theorem biased_sameNumber {kind : FloatKind} {word other : Nat}
    (bias : a.bias.map (· j) = b.bias.map (· j)) (same : kind.format.SameNumber word other) :
    kind.format.SameNumber (biased a kind word j) (biased b kind other j) := by
  rw [biased, biased]
  cases first : a.bias with
  | none =>
    cases second : b.bias with
    | none => exact same
    | some => simp [first, second] at bias
  | some f =>
    cases second : b.bias with
    | none => simp [first, second] at bias
    | some g =>
      have number : f j = g j := by simpa [first, second] using bias
      simp only [number]
      exact kind.encode_sameNumber ((kind.decode_sameNumber same).add_right _)

end Reference

/-- The outputs of the reference for a layer in one block and for one that is not cut. -/
private theorem LayerSpec.OneBlock.output_sameNumber {spec other : LayerSpec} {rows columns : UInt64}
    (pair : spec.OneBlock other rows columns) {a b : LayerNumbers}
    (numbers : LayerNumbers.OneBlock spec a b) (someIn : spec.inFeatures ≠ 0) (kind : FloatKind)
    (x : Nat → Binary32) {j : Nat} (below : j < spec.outFeatures.toNat) :
    kind.format.SameNumber (Reference.output a spec kind x j)
      (Reference.output b other kind x j) := by
  have tall : j < rows.toNat := Nat.lt_of_lt_of_le below (UInt64.le_iff_toNat_le.mp pair.tall)
  have wide : spec.inFeatures.toNat ≤ columns.toNat := UInt64.le_iff_toNat_le.mp pair.wide
  have product : Reference.product a spec x j = 0 + Reference.product b other x j := by
    rw [Reference.product, Reference.product, pair.blocks, pair.whole]
    simp only [pair.measured, pair.inFeatures, Bool.false_eq_true, if_false, reduceCtorEq]
    exact Reference.blocks_single (toNat_pos_of_ne_zero someIn) tall wide (numbers.weight j below)
      numbers.scale
  apply Reference.biased_sameNumber (numbers.bias j below)
  apply kind.encode_sameNumber
  -- all that is left of the two loops is a sum with zero
  rw [product]
  exact Binary32.zero_add_sameNumber _

open QuantLinear.Action

/-- A layer with all the scales that it requires, each as its variant needs it, on served devices. -/
structure Layer.Complete (layer : Layer) (machine : Machine) : Prop where
  sound : layer.Sound
  serves : machine.Serves layer.device
  scales : ∀ role loaded, (layer.scales.get role).tensor? = some loaded →
    machine.Serves loaded.device
  suits : ∀ role ∈ layer.required, layer.Suits role
  loaded : ∀ role ∈ layer.required, layer.lacks role = false
  plain : layer.variant ≠ .packed

namespace Layer.Complete

variable {machine : Machine} {id : LayerId} {layer : Layer}

/-- No scale is made up for such a layer, so no observer is asked. -/
private theorem madeUp_eq_nil (complete : layer.Complete machine) : layer.madeUp = [] := by
  have none : layer.required.filter layer.lacks = [] := by
    apply List.filter_eq_nil_iff.mpr
    intro role member lacking
    cases (complete.loaded role member).symm.trans lacking
  rw [Layer.madeUp, none, List.map_nil]

/-- Such a layer can be materialized, whatever the observer. -/
private theorem ends_ensure (complete : layer.Complete machine)
    (there : machine.layers[id]? = some layer) :
    (ensureMaterialized id).Ends machine
      (fun _ after => ∃ ready, Ensured machine id layer ready after) (fun _ _ => False) := by
  cases done : layer.materialized with
  | true =>
    simp only [ensureMaterialized, findLayer, ends_bind, ends_get, there, ends_pure, done, if_true]
    exact ⟨layer, .inl ⟨done, rfl, rfl⟩⟩
  | false =>
    apply (ends_ensureMaterialized there done).mono
    · rintro _ after ⟨ready, committed, -⟩
      exact ⟨ready, .inr ⟨done, _, committed⟩⟩
    · rintro _ after (⟨-, failed⟩ | ⟨-, _, earlier, refused, later, reports, -⟩)
      · have home : machine.Serves layer.weight.device := by
          rw [complete.sound.weightDevice]
          exact complete.serves
        have params := ElementKind.isFloating_of_isWideFloating complete.sound.params
        -- only a missing scale or packing could fail, and nothing is missing or to be packed
        rcases failed ⟨home, complete.scales, params⟩ complete.suits with ⟨-, large⟩ | ⟨pending, -⟩
        · refine large fun role member lacking => ?_
          cases (complete.loaded role member).symm.trans lacking
        · exact complete.plain pending.1
      · rw [complete.madeUp_eq_nil] at reports
        simp at reports

/-- Applying such a layer to activations that it takes is multiplying. -/
private theorem ends_apply (complete : layer.Complete machine)
    (there : machine.layers[id]? = some layer)
    {x : Tensor} (takes : layer.Takes x) {returns : Tensor → Machine → Prop}
    (multiplies : ∀ ready middle, Ensured machine id layer ready middle →
      (ready.product x).Ends middle returns fun _ _ => False) :
    (applyLayer id (some x)).Ends machine returns fun _ _ => False := by
  simp only [applyLayer, findLayer, ends_bind, ends_get, there, ends_pure]
  apply (ends_checkKernels layer.variant layer.device machine).mono
  · intro _ after same
    subst same
    apply (complete.ends_ensure there).mono
    · rintro _ middle ⟨ready, ensured⟩
      have again : ready.checkActivation (some x) = .ok x :=
        Layer.checkActivation_eq_ok.mpr ⟨rfl, ensured.takes_iff.mpr takes⟩
      simp only [ensured.found there, ends_pure, again, ends_ok]
      exact multiplies ready middle ensured
    · exact fun _ _ none => none
  · rintro _ _ ⟨-, unserved⟩
    exact unserved complete.serves

end Layer.Complete

/-- A call that a program makes on a layer. -/
structure LayerCall where
  machine : Machine
  id : LayerId
  layer : Layer
  activation : Tensor

namespace LayerCall

variable {call first second : LayerCall}

def numbers (call : LayerCall) : LayerNumbers := call.layer.numbers call.machine.memory

def run (call : LayerCall) : EStateM.Result Fault Machine Tensor :=
  applyLayer call.id (some call.activation) call.machine

/-- A call on the host, on a layer of a run into which a scale of a shape was loaded, with
activations that the layer takes. -/
structure Accepted (call : LayerCall) (role : ScaleRole) (shape : Shape) : Prop where
  reachable : call.machine.Reachable
  there : call.machine.layers[call.id]? = some call.layer
  fits : call.layer.spec.Fits
  serves : call.machine.Serves call.layer.device
  scales : ∀ role loaded, (call.layer.scales.get role).tensor? = some loaded →
    call.machine.Serves loaded.device
  loaded : ∃ scale, call.layer.scales.get role = .held scale ∧ scale.shape = shape ∧
    scale.kind.isFloating = true
  given : call.machine.memory.Has call.activation.toView
  takes : call.layer.Takes call.activation
  spans : call.layer.spec.Spans call.activation

/-- Two calls are given the same activations, wherever they lie. -/
structure SameActivation (first second : LayerCall) : Prop where
  kind : second.activation.kind = first.activation.kind
  shape : second.activation.shape = first.activation.shape
  numbers : ∀ index, first.activation.shape.Within index →
    second.machine.memory.numberAt second.activation.toView index =
      first.machine.memory.numberAt first.activation.toView index

/-- A call returned the output of the reference for the numbers of its layer and the rows of its
activations. -/
structure Outputs (call : LayerCall) (kind : FloatKind) (result : Tensor) (after : Machine) :
    Prop where
  returned : call.run = .ok result after
  kind_eq : result.kind = .float kind
  shape : result.shape = call.activation.shape.dropLast ++ [call.layer.spec.outFeatures]
  words : ∀ index, Shape.Within call.activation.shape.dropLast index →
    ∀ j < call.layer.spec.outFeatures.toNat, after.memory.load result.toView (index ++ [j]) =
      Reference.output call.numbers call.layer.spec kind
        (fun p => call.machine.memory.number call.activation.toView kind (index ++ [p])) j

namespace Accepted

variable {role : ScaleRole} {shape : Shape}

theorem sound (accepted : call.Accepted role shape) : call.layer.Sound :=
  accepted.reachable.sound call.id call.layer accepted.there

theorem held (accepted : call.Accepted role shape) : call.layer.Held call.machine.memory :=
  accepted.reachable.holds call.id call.layer accepted.there

/-- A layer that requires no other scale is complete. -/
theorem complete (accepted : call.Accepted role shape) (required : call.layer.required = [role])
    (expected : call.layer.scaleShape role = shape) (plain : call.layer.variant ≠ .packed) :
    call.layer.Complete call.machine where
  sound := accepted.sound
  serves := accepted.serves
  scales := accepted.scales
  suits other member loaded there := by
    -- the one scale that is required is the one that was loaded
    rw [required, List.mem_singleton] at member
    obtain ⟨scale, held, shaped, floating⟩ := accepted.loaded
    cases member
    cases held.symm.trans (ScaleSlot.held_of_tensor? there)
    exact ⟨shaped.trans expected.symm, floating⟩
  loaded other member := by
    rw [required, List.mem_singleton] at member
    obtain ⟨scale, held, -⟩ := accepted.loaded
    rw [member, Layer.lacks, held]
    rfl
  plain := plain

/-- Such a call returns the output of the reference for the numbers of its layer. -/
theorem outputs {kind : FloatKind} (accepted : call.Accepted role shape)
    (required : call.layer.required = [role]) (expected : call.layer.scaleShape role = shape)
    (single : shape.count = 1) (plain : call.layer.variant ≠ .packed)
    (divides : call.layer.Divides call.machine.memory) (float : call.activation.kind = .float kind) :
    ∃ result after, call.Outputs kind result after := by
  have scales (_ : call.layer.materialized = false) (other : ScaleRole)
      (member : other ∈ call.layer.required) (scale : Tensor)
      (there : call.layer.scales.get other = .held scale) : scale.Fits := by
    rw [required, List.mem_singleton] at member
    obtain ⟨known, held, shaped, -⟩ := accepted.loaded
    cases member
    cases held.symm.trans there
    exact View.fits_single (by rw [shaped, single])
  have complete := accepted.complete required expected plain
  -- the call comes to the product, and the product of a served layer does not fail
  have ended : (applyLayer call.id (some call.activation)).Ends call.machine
      (fun result after => ∃ ready middle, Ensured call.machine call.id call.layer ready middle ∧
        Produced middle.memory ready call.activation result call.activation.shape.dropLast kind
          after.memory)
      (fun _ _ => False) := by
    apply complete.ends_apply accepted.there accepted.takes
    intro ready middle ensured
    have prepared := ensured.prepared accepted.sound accepted.held accepted.fits accepted.given
      (ensured.takes_iff.mpr accepted.takes) float accepted.spans
    apply (ends_product ready call.activation call.activation.shape.dropLast kind middle).mono
    · rintro result after ⟨-, made⟩
      exact ⟨ready, middle, ensured, (made prepared).2⟩
    · rintro _ after ⟨-, failed⟩
      apply failed prepared
      · rw [ensured.spec.2]
        exact ensured.serves accepted.serves
      · exact (ensured.divides_iff accepted.held accepted.fits).mpr divides
  obtain ⟨result, after, returned, ready, middle, ensured, produced⟩ := ended.returned
  have spec := ensured.spec.1
  refine ⟨result, after, returned, produced.kind_eq.trans float, spec ▸ produced.shape, ?_⟩
  intro index inside j below
  -- the numbers stay while the layer is materialized
  have agree := ensured.numbers accepted.sound accepted.held accepted.fits scales
  rw [produced.words index inside j (by rw [spec]; exact below), spec,
    agree.output_eq accepted.fits kind _ below]
  simp only [ensured.memory.number accepted.given List.not_mem_nil, numbers]

/-- A layer whose weight is one block, with the one scale that this makes. -/
private theorem outputs_inBlock {rows columns : UInt64} {kind : FloatKind}
    (accepted : call.Accepted .weightInverse [1, 1])
    (blocks : call.layer.spec.variant = .block rows columns)
    (tall : call.layer.spec.outFeatures ≤ rows) (wide : call.layer.spec.inFeatures ≤ columns)
    (float : call.activation.kind = .float kind) :
    ∃ result after, call.Outputs kind result after := by
  obtain ⟨someIn, someOut⟩ := accepted.sound.features
  have variant : call.layer.variant = .block rows columns := blocks
  have required : call.layer.required = [.weightInverse] := by
    rw [Layer.required, variant]
    rfl
  -- one block each way
  have counts : call.layer.scaleShape .weightInverse = [1, 1] := by
    rw [Layer.scaleShape, variant]
    simp only [Variant.expectedShape, pure, Except.pure,
      ceilDiv_of_le someOut tall (accepted.fits.rows rows columns blocks),
      ceilDiv_of_le someIn wide (accepted.fits.columns rows columns blocks)]
  apply accepted.outputs required counts rfl _ _ float
  · simp [variant]
  · rintro ⟨granularity, standard⟩
    cases variant.symm.trans standard

/-- A layer with one scale for its whole weight, which measures its activations. -/
private theorem outputs_uncut {kind : FloatKind} (accepted : call.Accepted .weight [1])
    (whole : call.layer.spec.variant = .standard .tensor)
    (measured : call.layer.spec.staticActivation = false)
    (float : call.activation.kind = .float kind) :
    ∃ result after, call.Outputs kind result after := by
  have variant : call.layer.variant = .standard .tensor := whole
  have required : call.layer.required = [.weight] := by
    rw [Layer.required, variant, Variant.requiredScales, measured]
    rfl
  have single : call.layer.scaleShape .weight = [1] := by
    rw [Layer.scaleShape, variant]
    rfl
  apply accepted.outputs required single rfl _ _ float
  · simp [variant]
  · intro _ given
    cases measured.symm.trans given

end Accepted

/-- What two calls on the same row of activations return for it. -/
theorem SameActivation.row {kind : FloatKind} (same : first.SameActivation second)
    (float : first.activation.kind = .float kind) (takes : first.layer.Takes first.activation)
    (features : second.layer.spec.inFeatures = first.layer.spec.inFeatures) {index : Index}
    (inside : Shape.Within first.activation.shape.dropLast index) (j : Nat) :
    Reference.output second.numbers second.layer.spec kind
        (fun p => second.machine.memory.number second.activation.toView kind (index ++ [p])) j =
      Reference.output second.numbers second.layer.spec kind
        (fun p => first.machine.memory.number first.activation.toView kind (index ++ [p])) j := by
  obtain ⟨lead, shape⟩ := takes.shape
  rw [shape, List.dropLast_concat] at inside
  rw [Reference.output, Reference.output, Reference.product_congr]
  intro p inDepth
  rw [features] at inDepth
  have number := same.numbers (index ++ [p]) (by
    rw [shape]
    exact Shape.within_append inside inDepth)
  rwa [Memory.numberAt_eq float, Memory.numberAt_eq (same.kind.trans float)] at number

end LayerCall

/-- A layer whose weight is one block and a layer whose weight is not cut compute the same numbers
from the same weight, bias, scale and activations, bit for bit up to the sign of zero and the payload
of a NaN. Both calls return, wherever the tensors lie and whenever the layers were materialized. -/
theorem single_block_agrees {first second : LayerCall} {rows columns : UInt64}
    (pair : first.layer.spec.OneBlock second.layer.spec rows columns)
    (numbers : LayerNumbers.OneBlock first.layer.spec first.numbers second.numbers)
    (inBlock : first.Accepted .weightInverse [1, 1]) (uncut : second.Accepted .weight [1])
    (same : first.SameActivation second) :
    ∃ result after other afterOther kind,
      first.run = .ok result after ∧ second.run = .ok other afterOther ∧
      first.activation.kind = .float kind ∧ result.kind = .float kind ∧
      other.kind = .float kind ∧ other.shape = result.shape ∧
      result.shape = first.activation.shape.dropLast ++ [first.layer.spec.outFeatures] ∧
      ∀ index, result.shape.Within index →
        kind.format.SameNumber (after.memory.load result.toView index)
          (afterOther.memory.load other.toView index) := by
  obtain ⟨kind, float⟩ := ElementKind.float_of_isFloating
    (ElementKind.isFloating_of_isWideFloating inBlock.takes.wide)
  obtain ⟨result, after, made⟩ := inBlock.outputs_inBlock pair.blocks pair.tall pair.wide float
  obtain ⟨other, afterOther, madeOther⟩ :=
    uncut.outputs_uncut pair.whole pair.measured (same.kind.trans float)
  have shapes : other.shape = result.shape := by
    rw [madeOther.shape, made.shape, same.shape, pair.outFeatures]
  refine ⟨result, after, other, afterOther, kind, made.returned, madeOther.returned, float,
    made.kind_eq, madeOther.kind_eq, shapes, made.shape, ?_⟩
  intro index inside
  rw [made.shape] at inside
  obtain ⟨front, j, rfl, within, below⟩ := Shape.exists_of_within_append inside
  -- both words are outputs of the reference for one row, each for the numbers of its own layer
  have word := made.words front within j below
  have wordOther := madeOther.words front (by rwa [same.shape]) j (by rwa [pair.outFeatures])
  rw [same.row float inBlock.takes pair.inFeatures within] at wordOther
  rw [word, wordOther]
  exact pair.output_sameNumber numbers inBlock.sound.features.1 kind _ below

/-- Two inputs and two outputs in one block that is larger than the weight. -/
def inOneBlock : LayerSpec where
  inFeatures := 2
  outFeatures := 2
  hasBias := true
  blockSize := some ⟨128, 128⟩

/-- The same layer with one scale for its whole weight. -/
def inNoBlock : LayerSpec := { inOneBlock with blockSize := none }

/-- A single number at the start of the storage with the scale. -/
def minusHalf (shape : Shape) : Tensor where
  kind := .float .f32
  shape := shape
  strides := shape.contiguousStrides
  storage := 4
  offset := 0
  device := .host
  handle := 4

/-- A row of zeros and a row with a NaN. -/
def rowsOfTwo : Tensor where
  kind := .float .f32
  shape := [2, 2]
  strides := [2, 1]
  storage := 5
  offset := 0
  device := .host
  handle := 5

/-- Stores a scale of minus one half and the activations, and fills both layers. -/
def fillBoth : Command :=
  .tensors fun mem =>
    let weight := [0x38, 0x40, 0x44, 0x48]
    let bias := [0, 0, 0, 0x80, 0, 0, 0x80, 0x3f]
    ((((mem.allocate #[0, 0, 0, 0xbf]).allocate
      #[0, 0, 0, 0, 0, 0, 0, 0, 0, 0, 0x80, 0x3f, 0, 0, 0xc0, 0x7f]).writeBytes 0 0 weight).writeBytes
        1 0 bias).writeBytes 2 0 weight |>.writeBytes 3 0 bias

def withBoth : Machine :=
  ((Machine.initial.step (.build inOneBlock .host)).step (.build inNoBlock .host)).step fillBoth

/-- The machine after both layers were filled and their scales loaded. -/
def withBothScaled : Machine :=
  (withBoth.step (.load 0 "weight_scale_inv" (some (minusHalf [1, 1])))).step
    (.load 1 "weight_scale" (some (minusHalf [1])))

def bothLayer (spec : LayerSpec) (weight : Nat) (scales : ScaleSlots) : Layer where
  spec := spec
  device := .host
  weight := {
    kind := .float .f8, shape := [2, 2], strides := [2, 1], storage := weight, offset := 0,
    device := .host, handle := weight }
  bias := some {
    kind := .float .f32, shape := [2], strides := [1], storage := weight + 1, offset := 0,
    device := .host, handle := weight + 1 }
  scales := scales
  repacked := false
  materialized := false
  placeholders := 0

def inBlockCall : LayerCall :=
  ⟨withBothScaled, 0, bothLayer inOneBlock 0 { weightInverse := .held (minusHalf [1, 1]) }, rowsOfTwo⟩

def uncutCall : LayerCall :=
  ⟨withBothScaled, 1, bothLayer inNoBlock 2 { weight := .held (minusHalf [1]) }, rowsOfTwo⟩

private theorem reachable_withBoth : withBoth.Reachable := by
  apply Machine.Reachable.step fillBoth
  · apply Machine.Reachable.step (.build inNoBlock .host)
    · exact .step (.build inOneBlock .host) .initial trivial
    · trivial
  · exact Nat.le_of_ble_eq_true (by decide +kernel)

private theorem reachable_withBothScaled : withBothScaled.Reachable := by
  apply Machine.Reachable.step (.load 1 "weight_scale" (some (minusHalf [1])))
  · apply Machine.Reachable.step (.load 0 "weight_scale_inv" (some (minusHalf [1, 1])))
    · exact reachable_withBoth
    · rintro _ ⟨⟩
      exact ⟨rfl, by decide +kernel⟩
  · rintro _ ⟨⟩
    exact ⟨rfl, by decide +kernel⟩

private theorem serves_withBothScaled : withBothScaled.Serves .host where
  builtin := ⟨rfl, fun _ => rfl⟩
  host := rfl

private theorem accepted_inBlockCall : inBlockCall.Accepted .weightInverse [1, 1] where
  reachable := reachable_withBothScaled
  there := by decide +kernel
  fits := by
    have blocks : inOneBlock.variant = .block 128 128 := by decide
    constructor
    · decide
    · intro rows columns found
      cases blocks.symm.trans found
      decide
    · intro rows columns found
      cases blocks.symm.trans found
      decide
  serves := serves_withBothScaled
  scales role _ there := by
    cases role <;> cases there
    exact serves_withBothScaled
  loaded := ⟨minusHalf [1, 1], rfl, rfl, rfl⟩
  given := ⟨rfl, by decide +kernel⟩
  takes := ⟨⟨[2], rfl⟩, rfl, rfl⟩
  spans := ⟨by decide, by decide⟩

private theorem accepted_uncutCall : uncutCall.Accepted .weight [1] where
  reachable := reachable_withBothScaled
  there := by decide +kernel
  fits := by
    have whole : inNoBlock.variant = .standard .tensor := by decide
    constructor
    · decide
    · intro _ _ blocks
      cases whole.symm.trans blocks
    · intro _ _ blocks
      cases whole.symm.trans blocks
  serves := serves_withBothScaled
  scales role _ there := by
    cases role <;> cases there
    exact serves_withBothScaled
  loaded := ⟨minusHalf [1], rfl, rfl, rfl⟩
  given := ⟨rfl, by decide +kernel⟩
  takes := ⟨⟨[2], rfl⟩, rfl, rfl⟩
  spans := ⟨by decide, by decide⟩

theorem single_block_agrees_rows : ∃ result after other afterOther,
    applyLayer 0 (some rowsOfTwo) withBothScaled = .ok result after ∧
    applyLayer 1 (some rowsOfTwo) withBothScaled = .ok other afterOther ∧
    ∀ index, Shape.Within [2, 2] index → Format.binary32.SameNumber
      (after.memory.load result.toView index) (afterOther.memory.load other.toView index) := by
  have pair : inBlockCall.layer.spec.OneBlock uncutCall.layer.spec 128 128 :=
    ⟨by decide, by decide, rfl, rfl, rfl, by decide, by decide⟩
  have numbers : LayerNumbers.OneBlock inBlockCall.layer.spec inBlockCall.numbers
      uncutCall.numbers := by
    -- both layers were filled alike, so the kernel may compare them number by number
    constructor
    · change ∀ j < 2, ∀ p < 2, _
      decide +kernel
    · decide +kernel
    · change ∀ j < 2, _
      decide +kernel
  obtain ⟨result, after, other, afterOther, kind, returned, returnedOther, float, -, -, -, shape,
    same⟩ := single_block_agrees pair numbers accepted_inBlockCall accepted_uncutCall
      ⟨rfl, rfl, fun _ _ => rfl⟩
  cases float
  refine ⟨result, after, other, afterOther, returned, returnedOther, ?_⟩
  rw [shape] at same
  exact same

/-- The two zeros of a row of zeros. -/
example : (match applyLayer 0 (some rowsOfTwo) withBothScaled,
      applyLayer 1 (some rowsOfTwo) withBothScaled with
    | .ok result after, .ok other afterOther =>
      some (after.memory.load result.toView [0, 0], afterOther.memory.load other.toView [0, 0])
    | _, _ => none) = some (0, 0x80000000) := by
  decide +kernel

end QuantLinear
