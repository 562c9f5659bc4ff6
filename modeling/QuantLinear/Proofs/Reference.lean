import QuantLinear.Proofs.Kernel.Quantize
import QuantLinear.Kernel.Packed
import QuantLinear.Layer.State
import QuantLinear.Scheme.Expected
import Mathlib.Data.List.Basic

/-!
The function that a layer computes, apart from any layout.

The numbers of a layer are functions of features and of positions in scales. The reference takes
them and one row of activations to one output, by sums over natural ranges in single precision; it
knows of no strides, storages, packed forms or wrapping words.
-/

namespace QuantLinear

namespace LayerSpec

/-- The sizes of a layer do not wrap where it computes with them. -/
structure Fits (spec : LayerSpec) : Prop where
  weight : spec.outFeatures.toNat * spec.inFeatures.toNat < 2 ^ 63
  rows : ∀ rows columns, spec.variant = .block rows columns →
    spec.outFeatures.toNat + rows.toNat - 1 < 2 ^ 64
  columns : ∀ rows columns, spec.variant = .block rows columns →
    spec.inFeatures.toNat + columns.toNat - 1 < 2 ^ 64

/-- A variant has blocks of at least one row and one column. -/
theorem block_ne_zero {spec : LayerSpec} {rows columns : UInt64}
    (blocks : spec.variant = .block rows columns) :
    rows ≠ 0 ∧ columns ≠ 0 := by
  rw [variant] at blocks
  split at blocks
  · cases blocks
  · split at blocks
    · split at blocks
      · next positive =>
        cases blocks
        simp only [Bool.and_eq_true, decide_eq_true_eq] at positive
        exact ⟨fun zero => absurd positive.1 (by rw [zero]; decide),
          fun zero => absurd positive.2 (by rw [zero]; decide)⟩
      · cases blocks
    · cases blocks

section Required

variable {spec : LayerSpec} {granularity : Granularity} {rows columns : UInt64}

theorem weight_required (standard : spec.variant = .standard granularity) :
    .weight ∈ spec.variant.requiredScales spec := by
  rw [standard, Variant.requiredScales]
  split <;> simp

theorem input_required (standard : spec.variant = .standard granularity)
    (given : spec.staticActivation = true) : .input ∈ spec.variant.requiredScales spec := by
  rw [standard, Variant.requiredScales, if_pos given]
  simp

theorem weightInverse_required (blocks : spec.variant = .block rows columns) :
    .weightInverse ∈ spec.variant.requiredScales spec := by
  rw [blocks]
  exact List.mem_singleton.mpr rfl

theorem packedWeight_required (packed : spec.variant = .packed) :
    .weight ∈ spec.variant.requiredScales spec := by
  rw [packed]
  exact List.mem_singleton.mpr rfl

end Required

end LayerSpec

structure LayerNumbers where
  weight : (output input : Nat) → Binary32
  scale : ScaleRole → Index → Binary32
  bias : Option (Nat → Binary32)

namespace Reference

/-- `term lo + … + term (hi - 1)`, added to zero one by one. -/
def sum (lo hi : Nat) (term : Nat → Binary32) : Binary32 :=
  (List.range' lo (hi - lo)).foldl (fun total p => total + term p) 0

/-- The largest magnitude of the numbers from `lo` on and below `hi`, passing over NaNs. -/
def peak (lo hi : Nat) (x : Nat → Binary32) : Binary32 :=
  (List.range' lo (hi - lo)).foldl (fun peak p => peak.max (x p).abs) 0

/-- The scale that brings the largest of some numbers to the largest of eight bits. -/
def measuredScale (lo hi : Nat) (x : Nat → Binary32) : Binary32 :=
  (peak lo hi x).max smallestPeak / float8Limit

/-- A number rounded to eight bits. -/
def rounded (x : Binary32) : Binary32 := FloatKind.f8.decode (FloatKind.f8.encode x)

section Products

variable (numbers : LayerNumbers) (depth : Nat) (x : Nat → Binary32) (j : Nat)

/-- An output with the scale of the activations given. -/
def static (channel : Nat) : Binary32 :=
  let scale := numbers.scale .input [0]
  sum 0 depth (fun p => rounded (x p * (Binary32.one / scale)) * numbers.weight j p) * scale
    * numbers.scale .weight [channel]

/-- An output with the scale of the activations measured over the row. -/
def dynamic (channel : Nat) : Binary32 :=
  let scale := measuredScale 0 depth x
  sum 0 depth (fun p => rounded (x p / scale) * numbers.weight j p) * scale
    * numbers.scale .weight [channel]

/-- An output with scales for blocks of the weight, those of the activations measured over the
columns of each block. -/
def blocks (blockRows blockColumns : Nat) : Binary32 :=
  sum 0 ((depth + blockColumns - 1) / blockColumns) fun block =>
    let lo := block * blockColumns
    let hi := min depth (lo + blockColumns)
    let scale := measuredScale lo hi x
    sum lo hi (fun p => rounded (x p / scale) * numbers.weight j p) * scale
      * numbers.scale .weightInverse [j / blockRows, block]

/-- An output with activations that are not rounded and a weight that comes with its scale. -/
def packed : Binary32 :=
  sum 0 depth fun p => x p * (numbers.weight j p * numbers.scale .weight [j])

end Products

/-- Output `j` of a layer for a row of activations, before the bias. -/
def product (numbers : LayerNumbers) (spec : LayerSpec) (x : Nat → Binary32) (j : Nat) : Binary32 :=
  let depth := spec.inFeatures.toNat
  match spec.variant with
  | .standard granularity =>
    let channel := if granularity = .channel then j else 0
    if spec.staticActivation then static numbers depth x j channel
    else dynamic numbers depth x j channel
  | .block rows columns => blocks numbers depth x j rows.toNat columns.toNat
  | .packed => packed numbers depth x j

/-- A stored output after the bias is added to what was stored. -/
def biased (numbers : LayerNumbers) (kind : FloatKind) (word j : Nat) : Nat :=
  match numbers.bias with
  | none => word
  | some bias => kind.encode (kind.decode word + bias j)

/-- The word of output `j` of a layer for a row of activations. -/
def output (numbers : LayerNumbers) (spec : LayerSpec) (kind : FloatKind) (x : Nat → Binary32)
    (j : Nat) : Nat :=
  biased numbers kind (kind.encode (product numbers spec x j)) j

section Congruence

variable {lo hi : Nat} {x y : Nat → Binary32}

theorem sum_congr (same : ∀ p, lo ≤ p → p < hi → x p = y p) : sum lo hi x = sum lo hi y := by
  refine List.foldl_ext _ _ _ fun total p member => ?_
  have bounds := List.mem_range'_1.mp member
  rw [same p bounds.1 (by omega)]

theorem measuredScale_congr (same : ∀ p, lo ≤ p → p < hi → x p = y p) :
    measuredScale lo hi x = measuredScale lo hi y := by
  have peaks : peak lo hi x = peak lo hi y := by
    refine List.foldl_ext _ _ _ fun largest p member => ?_
    have bounds := List.mem_range'_1.mp member
    rw [same p bounds.1 (by omega)]
  rw [measuredScale, measuredScale, peaks]

/-- An output depends on the activations of its row alone. -/
theorem product_congr {numbers : LayerNumbers} {spec : LayerSpec} {j : Nat}
    (same : ∀ p < spec.inFeatures.toNat, x p = y p) :
    product numbers spec x j = product numbers spec y j := by
  have whole : measuredScale 0 spec.inFeatures.toNat x = measuredScale 0 spec.inFeatures.toNat y :=
    measuredScale_congr fun p _ below => same p below
  unfold product
  split
  · simp only [static, dynamic, whole]
    split
    · rw [sum_congr fun p _ below => by rw [same p below]]
    · rw [sum_congr fun p _ below => by rw [same p below]]
  · refine sum_congr fun block _ _ => ?_
    have inside {p : Nat} {hi : Nat} (below : p < min spec.inFeatures.toNat hi) : x p = y p :=
      same p (Nat.lt_of_lt_of_le below (Nat.min_le_left ..))
    simp only [measuredScale_congr fun p _ below => inside below]
    rw [sum_congr fun p _ below => by rw [inside below]]
  · exact sum_congr fun p _ below => by rw [same p below]

end Congruence

end Reference

/-- Numbers that agree wherever a layer of the given configuration looks. -/
structure LayerNumbers.Agree (spec : LayerSpec) (a b : LayerNumbers) : Prop where
  weight : ∀ j < spec.outFeatures.toNat, ∀ p < spec.inFeatures.toNat, a.weight j p = b.weight j p
  scale : ∀ role ∈ spec.variant.requiredScales spec, ∀ shape,
    spec.variant.expectedShape (some role) spec = .ok shape →
    ∀ index, shape.Within index → a.scale role index = b.scale role index
  bias : a.bias = b.bias

namespace LayerNumbers.Agree

variable {spec : LayerSpec} {a b c : LayerNumbers}

theorem refl (spec : LayerSpec) (numbers : LayerNumbers) : Agree spec numbers numbers :=
  ⟨fun _ _ _ _ => rfl, fun _ _ _ _ _ _ => rfl, rfl⟩

theorem trans (first : Agree spec a b) (second : Agree spec b c) : Agree spec a c where
  weight j inRows p inColumns :=
    (first.weight j inRows p inColumns).trans (second.weight j inRows p inColumns)
  scale role member shape expected index inside :=
    (first.scale role member shape expected index inside).trans
      (second.scale role member shape expected index inside)
  bias := first.bias.trans second.bias

/-- The weight scale that serves an output, where there is one for each channel or for all. -/
private theorem channelScale (agree : Agree spec a b) {granularity : Granularity}
    (standard : spec.variant = .standard granularity) {j : Nat} (below : j < spec.outFeatures.toNat) :
    a.scale .weight [if granularity = .channel then j else 0] =
      b.scale .weight [if granularity = .channel then j else 0] := by
  have scale := agree.scale .weight (LayerSpec.weight_required standard)
  rw [standard] at scale
  cases granularity with
  | channel => exact scale [spec.outFeatures] rfl [j] ⟨below, trivial⟩
  | tensor => exact scale [1] rfl [0] ⟨Nat.one_pos, trivial⟩
  | unspecified => exact scale [1] rfl [0] ⟨Nat.one_pos, trivial⟩

theorem inputScale (agree : Agree spec a b) {granularity : Granularity}
    (standard : spec.variant = .standard granularity) (given : spec.staticActivation = true) :
    a.scale .input [0] = b.scale .input [0] := by
  exact agree.scale .input (LayerSpec.input_required standard given) [1] rfl [0] ⟨Nat.one_pos, trivial⟩

/-- Numbers that agree make for the same product. -/
private theorem product_eq (agree : Agree spec a b) (fits : spec.Fits) (x : Nat → Binary32) {j : Nat}
    (below : j < spec.outFeatures.toNat) :
    Reference.product a spec x j = Reference.product b spec x j := by
  have weight (p : Nat) (inDepth : p < spec.inFeatures.toNat) : a.weight j p = b.weight j p :=
    agree.weight j below p inDepth
  unfold Reference.product
  split
  · next granularity standard =>
    have channel := agree.channelScale standard below
    by_cases given : spec.staticActivation = true
    · simp only [given, if_true, Reference.static, channel, agree.inputScale standard given]
      rw [Reference.sum_congr fun p _ inDepth => by rw [weight p inDepth]]
    · simp only [given, Bool.false_eq_true, if_false, Reference.dynamic, channel]
      rw [Reference.sum_congr fun p _ inDepth => by rw [weight p inDepth]]
  · next rows columns blocks =>
    obtain ⟨someRows, someColumns⟩ := LayerSpec.block_ne_zero blocks
    have scale := agree.scale .weightInverse (LayerSpec.weightInverse_required blocks)
    rw [blocks] at scale
    refine Reference.sum_congr fun block _ inBlocks => ?_
    rw [← toNat_ceilDiv someColumns (fits.columns rows columns blocks)] at inBlocks
    -- The numbers agree on the scale that the block of `j` has, and on no other that is read.
    have row := div_lt_ceilDiv someRows (fits.rows rows columns blocks) below
    simp only [scale _ rfl _ (Shape.within_of_lt row inBlocks)]
    rw [Reference.sum_congr fun p _ inside => by
      rw [weight p (Nat.lt_of_lt_of_le inside (Nat.min_le_left ..))]]
  · next packed =>
    have scale := agree.scale .weight (LayerSpec.packedWeight_required packed)
    rw [packed] at scale
    refine Reference.sum_congr fun p _ inDepth => ?_
    rw [weight p inDepth, scale [spec.outFeatures] rfl [j] ⟨below, trivial⟩]

/-- Numbers that agree make for the same output. -/
theorem output_eq (agree : Agree spec a b) (fits : spec.Fits) (kind : FloatKind)
    (x : Nat → Binary32) {j : Nat} (below : j < spec.outFeatures.toNat) :
    Reference.output a spec kind x j = Reference.output b spec kind x j := by
  simp only [Reference.output, Reference.biased, agree.bias, agree.product_eq fits x below]

end LayerNumbers.Agree

namespace Memory

/-- The number at a position of a view; zero where its kind is not floating. -/
def numberAt (mem : Memory) (v : View) (index : Index) : Binary32 :=
  match v.kind with
  | .float kind => mem.number v kind index
  | _ => 0

theorem numberAt_eq {mem : Memory} {v : View} {kind : FloatKind} (float : v.kind = .float kind)
    (index : Index) : mem.numberAt v index = mem.number v kind index := by
  rw [numberAt, float]

theorem Evolves.numberAt {changed : List Nat} {before after : Memory}
    (evolved : Evolves changed before after) {v : View} (there : before.Has v)
    (kept : v.storage ∉ changed) (index : Index) :
    after.numberAt v index = before.numberAt v index := by
  unfold Memory.numberAt
  split
  · exact evolved.number there kept _ index
  · rfl

end Memory

namespace Layer

/-- The numbers of a layer: those of its tensors, wherever and in whichever form they lie, and ones
for scales that no one loaded. -/
def numbers (layer : Layer) (mem : Memory) : LayerNumbers where
  weight output input :=
    if layer.repacked then
      Kernel.packedNumber mem layer.weight.toView layer.spec.outFeatures output input
    else mem.number layer.weight.toView .f8 [output, input]
  scale role index :=
    match (layer.scales.get role).tensor? with
    | none => Binary32.one
    | some scale => mem.numberAt scale.toView index
  bias := layer.bias.map fun bias j => mem.numberAt bias.toView [j]

end Layer

end QuantLinear
