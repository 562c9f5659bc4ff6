import QuantLinear.Proofs.Action
import QuantLinear.Proofs.Kernel.Loops
import QuantLinear.Proofs.Kernel.Outcome

/-!
What the quantizing kernels write.

Both write eight bit numbers to their target and leave the activations alone. Group quantization
writes each scale before the numbers of its group, so that a row is complete up to the group it has
come to.
-/

namespace QuantLinear

/-- The quotient rounded up, where the dividend does not wrap. -/
theorem toNat_ceilDiv {a b : UInt64} (some : b ≠ 0) (fits : a.toNat + b.toNat - 1 < 2 ^ 64) :
    (ceilDiv a b).toNat = (a.toNat + b.toNat - 1) / b.toNat := by
  have positive := toNat_pos_of_ne_zero some
  rw [ceilDiv, UInt64.toNat_div]
  congr 1
  have one : (1 : UInt64).toNat = 1 := rfl
  rw [UInt64.toNat_sub, UInt64.toNat_add, one]
  omega

/-- There are no more chunks than positions. -/
theorem toNat_ceilDiv_le {a b : UInt64} (some : b ≠ 0) (fits : a.toNat + b.toNat - 1 < 2 ^ 64) :
    (ceilDiv a b).toNat ≤ a.toNat := by
  have positive := toNat_pos_of_ne_zero some
  rw [toNat_ceilDiv some fits, Nat.div_le_iff_le_mul positive]
  have wide := Nat.le_mul_of_pos_right a.toNat positive
  omega

/-- A chunk as large as the axis is the only one. -/
theorem ceilDiv_of_le {a b : UInt64} (some : a ≠ 0) (covers : a ≤ b)
    (fits : a.toNat + b.toNat - 1 < 2 ^ 64) : ceilDiv a b = 1 := by
  have positive := toNat_pos_of_ne_zero some
  have below := UInt64.le_iff_toNat_le.mp covers
  have other : b ≠ 0 := by
    rintro rfl
    exact absurd (Nat.lt_of_lt_of_le positive below) (Nat.lt_irrefl _)
  apply UInt64.toNat_inj.mp
  rw [toNat_ceilDiv other fits, show (1 : UInt64).toNat = 1 from rfl]
  exact Nat.div_eq_of_lt_le (by omega) (by omega)

theorem ceilDiv_self {a : UInt64} (some : a ≠ 0) (fits : a.toNat + a.toNat - 1 < 2 ^ 64) :
    ceilDiv a a = 1 :=
  ceilDiv_of_le some UInt64.le_rfl fits

/-- A position lies in one of the chunks. -/
theorem div_lt_ceilDiv {a b : UInt64} (some : b ≠ 0) (fits : a.toNat + b.toNat - 1 < 2 ^ 64) {i : Nat}
    (below : i < a.toNat) : i / b.toNat < (ceilDiv a b).toNat := by
  have positive := toNat_pos_of_ne_zero some
  have whole := Nat.div_mul_le_self i b.toNat
  rw [toNat_ceilDiv some fits, Nat.lt_div_iff_mul_lt positive]
  omega

/-- The chunks of an axis reach its end. -/
theorem le_ceilDiv_mul {a b : UInt64} (some : b ≠ 0) (fits : a.toNat + b.toNat - 1 < 2 ^ 64) :
    a.toNat ≤ (ceilDiv a b).toNat * b.toNat := by
  have positive := toNat_pos_of_ne_zero some
  have split := Nat.div_add_mod (a.toNat + b.toNat - 1) b.toNat
  have rest := Nat.mod_lt (a.toNat + b.toNat - 1) positive
  rw [Nat.mul_comm] at split
  rw [toNat_ceilDiv some fits]
  omega

/-- An axis is cut into chunks without gaps. -/
theorem chunkRange_eq {extent size : UInt64} (some : size ≠ 0)
    (fits : extent.toNat + size.toNat - 1 < 2 ^ 64) {chunk : Nat}
    (below : chunk < (ceilDiv extent size).toNat) :
    chunkRange extent size (UInt64.ofNat chunk) =
        (chunk * size.toNat, min extent.toNat (chunk * size.toNat + size.toNat)) ∧
      chunk * size.toNat < extent.toNat := by
  have positive := toNat_pos_of_ne_zero some
  rw [toNat_ceilDiv some fits, Nat.lt_div_iff_mul_lt positive] at below
  have start : chunk * size.toNat < extent.toNat := by omega
  have chunks : chunk < 2 ^ 64 := by
    have wide := Nat.le_mul_of_pos_right chunk positive
    omega
  have first : (UInt64.ofNat chunk * size).toNat = chunk * size.toNat := by
    rw [UInt64.toNat_mul, UInt64.toNat_ofNat', Nat.mod_eq_of_lt chunks, Nat.mod_eq_of_lt (by omega)]
  have last : (UInt64.ofNat chunk * size + size).toNat = chunk * size.toNat + size.toNat := by
    rw [UInt64.toNat_add, first, Nat.mod_eq_of_lt (by omega)]
  refine ⟨?_, start⟩
  rw [chunkRange, first]
  congr 1
  rw [← last]
  exact UInt64.toNat_min _ _

namespace Kernel

open Memory

theorem evolves_runStaticQuantize {target x scale : View} {mem after : Memory}
    (ran : runStaticQuantize target x scale mem = .ok after) :
    mem.Evolves [target.storage] after := by
  simp only [runStaticQuantize, bind_eq_ok, require_eq_ok] at ran
  obtain ⟨_, _, _, _, _, _, _, _, ran⟩ := ran
  split at ran
  · cases ran
    exact .refl _ _
  · simp only [bind_eq_ok, pure_eq_ok] at ran
    obtain ⟨_, _, rfl⟩ := ran
    exact evolves_foldl (fun _ _ => evolves_store ..) _ _

/-- The number that a single scale holds. -/
def singleNumber (mem : Memory) (scale : View) (kind : FloatKind) : Binary32 :=
  kind.decode (mem.wordAt scale (scale.addressAt 0))

/-- Whether a number can divide activations. -/
def isDivisor (x : Binary32) : Bool := (0 : Binary32).lt x && x.isFinite

/-- Static quantization multiplies every number by the reciprocal of a positive finite scale, and
refuses all other scales. -/
theorem runStaticQuantize_spec {target x scale : View} {mem : Memory} {scaleKind kind : FloatKind}
    (separate : mem.Separate target) (output : target.kind = .float .f8)
    (shape : target.shape = x.shape) (apart : target.Disjoint x) (single : scale.numel = 1)
    (scaleFloat : scale.kind = .float scaleKind) (float : x.kind = .float kind) :
    if isDivisor (singleNumber mem scale scaleKind) then
      ∃ after, runStaticQuantize target x scale mem = .ok after ∧
        ∀ index, x.shape.Within index → after.load target index =
          FloatKind.f8.encode
            (mem.number x kind index * (Binary32.one / singleNumber mem scale scaleKind))
    else ∃ fault, runStaticQuantize target x scale mem = .error fault := by
  split
  · next usable =>
    obtain ⟨-, filled⟩ := Filled.foldl separate
      (fun index => FloatKind.f8.encode
        (mem.number x kind index * (Binary32.one / singleNumber mem scale scaleKind)))
      (fun mid index => mid.setNumber target .f8 index
        (mid.number x kind index * (Binary32.one / singleNumber mem scale scaleKind)))
      (fun index => by rw [output]; exact FloatKind.f8.encode_lt _) (Shape.nodup_indices x.shape)
      (fun index member => by rw [shape]; exact (Shape.mem_indices _ _).mp member)
      fun mid rewritten index member _ => by
        rw [setNumber, rewritten.number (by simpa using apart) kind
          ((Shape.mem_indices _ _).mp member)]
    refine ⟨_, ?_, fun index inside =>
      filled.written index (by rwa [shape]) ((Shape.mem_indices _ _).mpr inside)⟩
    rw [isDivisor, singleNumber] at usable
    simp only [runStaticQuantize, output, single, scaleFloat, float, usable, BEq.rfl, require,
      if_true, ElementKind.decodable, pure_bind, singleNumber]
    -- an empty activation is left alone before the loop
    split
    · next empty =>
      rw [Shape.indices, if_pos empty]
      rfl
    · rfl
  · next unusable =>
    rw [isDivisor, singleNumber, Bool.not_eq_true] at unusable
    refine ⟨.kernelFailure Kernel.staticQuantize.label .scaleNotPositive, ?_⟩
    simp only [runStaticQuantize, output, single, scaleFloat, unusable, BEq.rfl, require, if_true,
      ElementKind.decodable, pure_bind]
    rfl

private theorem evolves_quantizeGroup (target scales x : View) (scaleKind kind : FloatKind)
    (size : UInt64)
    (row : Nat) (mem : Memory) (group : Nat) :
    mem.Evolves [target.storage, scales.storage]
      (quantizeGroup target scales x scaleKind kind size row mem group) := by
  have wider {v : View} (index : Index) (word : Nat) (mem : Memory)
      (member : v.storage ∈ [target.storage, scales.storage]) :
      mem.Evolves [target.storage, scales.storage] (mem.store v index word) :=
    (evolves_store ..).widen (by simpa using member)
  exact (wider _ _ _ (by simp)).same
    (evolves_forRange (fun mem _ => wider _ _ mem (by simp)) _)

theorem evolves_runGroupQuantize {target scales x : View} {size : UInt64} {mem after : Memory}
    (ran : runGroupQuantize target scales x size mem = .ok after) :
    mem.Evolves [target.storage, scales.storage] after := by
  simp only [runGroupQuantize, bind_eq_ok, require_eq_ok] at ran
  obtain ⟨_, _, _, _, ran⟩ := ran
  split at ran
  · cases ran
    exact .refl _ _
  · simp only [bind_eq_ok, pure_eq_ok] at ran
    obtain ⟨_, _, _, _, rfl⟩ := ran
    exact evolves_forRange (fun _ _ => evolves_forRange (evolves_quantizeGroup _ _ _ _ _ _ _) _) _

/-- Group quantization takes a scale for each row and group, and no other scales. -/
theorem runGroupQuantize_scales {target scales x : View} {size : UInt64} {mem after : Memory}
    (ran : runGroupQuantize target scales x size mem = .ok after) :
    scales.shape = [x.extent 0, ceilDiv (x.extent 1) size] := by
  simp only [runGroupQuantize, bind_eq_ok, require_eq_ok, Bool.and_eq_true, beq_iff_eq] at ran
  obtain ⟨-, -, -, ⟨⟨rank, rows⟩, groups⟩, -⟩ := ran
  obtain ⟨first, second, pair⟩ := List.length_eq_two.mp rank
  obtain ⟨firstExtent, secondExtent⟩ := View.extent_pair pair
  rw [pair, ← rows, ← groups, firstExtent, secondExtent]

/-- The scale of a group of columns. -/
def measuredScale (mem : Memory) (x : View) (kind : FloatKind) (size : UInt64) (row group : Nat) :
    Binary32 :=
  let first := group * size.toNat
  groupScale (rowPeak mem x kind row first (min (x.extent 1).toNat (first + size.toNat)))

/-- The word that group quantization writes for a number. -/
def groupWord (mem : Memory) (x : View) (kind : FloatKind) (size : UInt64) : Index → Nat
  | [row, column] => FloatKind.f8.encode
      (mem.number x kind [row, column] / measuredScale mem x kind size row (column / size.toNat))
  | _ => 0

/-- The word that group quantization writes for a scale. -/
def scaleWord (mem : Memory) (x : View) (scaleKind kind : FloatKind) (size : UInt64) : Index → Nat
  | [row, group] => scaleKind.encode (measuredScale mem x kind size row group)
  | _ => 0

/-- The scale of a group depends on the numbers of its row alone. -/
theorem measuredScale_congr {mem later : Memory} {x : View} {kind : FloatKind} {size : UInt64}
    {row group : Nat} (same : ∀ column < (x.extent 1).toNat,
      later.number x kind [row, column] = mem.number x kind [row, column]) :
    measuredScale later x kind size row group = measuredScale mem x kind size row group := by
  refine congrArg groupScale (forRange_congr fun column _ below peak => ?_)
  rw [same column (Nat.lt_of_lt_of_le below (Nat.min_le_left ..))]

/-- Operands that group quantization takes. -/
structure GroupOperands (mem : Memory) (target scales x : View) (rows depth size : UInt64)
    (scaleKind kind : FloatKind) : Prop where
  targetSeparate : mem.Separate target
  scalesSeparate : mem.Separate scales
  targetKind : target.kind = .float .f8
  scalesKind : scales.kind = .float scaleKind
  sourceKind : x.kind = .float kind
  targetShape : target.shape = [rows, depth]
  scalesShape : scales.shape = [rows, ceilDiv depth size]
  sourceShape : x.shape = [rows, depth]
  targetApart : target.Disjoint scales
  sourceApart : ∀ v ∈ [target, scales], v.Disjoint x
  some : size ≠ 0
  fits : depth.toNat + size.toNat - 1 < 2 ^ 64

/-- How far group quantization has come: the columns below `column` and the groups below `group` of a
row, and all rows before it. -/
structure Quantized (mem : Memory) (target scales x : View) (size : UInt64)
    (scaleKind kind : FloatKind) (row group column : Nat) (mid : Memory) : Prop where
  rewritten : mem.Rewrites [target, scales] mid
  numbers : Filled mem target (groupWord mem x kind size) (Shape.Before row column) mid
  scales : Filled mem scales (scaleWord mem x scaleKind kind size) (Shape.Before row group) mid

section Group

variable {mem mid : Memory} {target scales x : View} {rows depth size : UInt64}
  {scaleKind kind : FloatKind} {row group column : Nat}

namespace GroupOperands

theorem extent (ready : GroupOperands mem target scales x rows depth size scaleKind kind) :
    x.extent 1 = depth := (View.extent_pair ready.sourceShape).2

/-- The activations stay as they are. -/
theorem number (ready : GroupOperands mem target scales x rows depth size scaleKind kind)
    (rewritten : mem.Rewrites [target, scales] mid) (inRows : row < rows.toNat) {column : Nat}
    (inColumns : column < depth.toNat) :
    mid.number x kind [row, column] = mem.number x kind [row, column] := by
  apply rewritten.number ready.sourceApart kind
  rw [ready.sourceShape]
  exact Shape.within_of_lt inRows inColumns

theorem measured (ready : GroupOperands mem target scales x rows depth size scaleKind kind)
    (rewritten : mem.Rewrites [target, scales] mid) (inRows : row < rows.toNat) (group : Nat) :
    measuredScale mid x kind size row group = measuredScale mem x kind size row group :=
  measuredScale_congr fun _ below =>
    ready.number rewritten inRows (by rwa [ready.extent] at below)

end GroupOperands

namespace Quantized

/-- Writing one more number. -/
private theorem nextNumber (ready : GroupOperands mem target scales x rows depth size scaleKind kind)
    (before : Quantized mem target scales x size scaleKind kind row group column mid)
    (inRows : row < rows.toNat) (inColumns : column < depth.toNat) :
    Quantized mem target scales x size scaleKind kind row group (column + 1)
      (mid.store target [row, column] (groupWord mem x kind size [row, column])) := by
  have within : target.shape.Within [row, column] := by
    rw [ready.targetShape]
    exact Shape.within_of_lt inRows inColumns
  constructor
  case rewritten =>
    exact before.rewritten.trans ((rewrites_store _ within _).widen (by simp))
  case numbers =>
    apply (before.numbers.store (ready.targetSeparate.later before.rewritten.evolves) within ?_).congr
    · intro index inside
      rw [ready.targetShape] at inside
      exact Shape.before_succ inside
    · rw [ready.targetKind]
      exact FloatKind.f8.encode_lt _
  case scales => exact before.scales.apart ready.targetApart within _

/-- Writing one more scale. -/
private theorem nextScale (ready : GroupOperands mem target scales x rows depth size scaleKind kind)
    (before : Quantized mem target scales x size scaleKind kind row group column mid)
    (inRows : row < rows.toNat) (inGroups : group < (ceilDiv depth size).toNat) :
    Quantized mem target scales x size scaleKind kind row (group + 1) column
      (mid.store scales [row, group] (scaleWord mem x scaleKind kind size [row, group])) := by
  have within : scales.shape.Within [row, group] := by
    rw [ready.scalesShape]
    exact Shape.within_of_lt inRows inGroups
  constructor
  case rewritten =>
    exact before.rewritten.trans ((rewrites_store _ within _).widen (by simp))
  case numbers => exact before.numbers.apart ready.targetApart.symm within _
  case scales =>
    apply (before.scales.store (ready.scalesSeparate.later before.rewritten.evolves) within ?_).congr
    · intro index inside
      rw [ready.scalesShape] at inside
      exact Shape.before_succ inside
    · rw [ready.scalesKind]
      exact scaleKind.encode_lt _

/-- Quantizing one more group. -/
private theorem nextGroup (ready : GroupOperands mem target scales x rows depth size scaleKind kind)
    (before : Quantized mem target scales x size scaleKind kind row group (group * size.toNat) mid)
    (inRows : row < rows.toNat) (inGroups : group < (ceilDiv depth size).toNat) :
    Quantized mem target scales x size scaleKind kind row (group + 1)
      (min depth.toNat ((group + 1) * size.toNat))
      (quantizeGroup target scales x scaleKind kind size row mid group) := by
  obtain ⟨range, start⟩ := chunkRange_eq ready.some ready.fits inGroups
  have scale : groupScale (rowPeak mid x kind row (group * size.toNat)
      (min depth.toNat (group * size.toNat + size.toNat))) =
      measuredScale mem x kind size row group := by
    rw [← ready.measured before.rewritten inRows, measuredScale, ready.extent]
  rw [quantizeGroup, ready.extent, range, Nat.succ_mul]
  -- the scale is written first, then the numbers of the group from left to right
  refine forRange_induction
    (fun column later =>
      Quantized mem target scales x size scaleKind kind row (group + 1) column later)
    (by omega) _ _ ?_ fun column later above below reached => ?_
  · simp only [scale]
    exact before.nextScale ready inRows inGroups
  · -- the column belongs to the group whose scale was measured
    have mine : column / size.toNat = group :=
      Nat.div_eq_of_lt_le above (by rw [Nat.succ_mul]; omega)
    have inColumns : column < depth.toNat := by omega
    have next := reached.nextNumber ready inRows inColumns
    simpa only [groupWord, setNumber, scale, ready.number reached.rewritten inRows inColumns, mine]
      using next

/-- Quantizing one more row. -/
private theorem nextRow (ready : GroupOperands mem target scales x rows depth size scaleKind kind)
    (before : Quantized mem target scales x size scaleKind kind row 0 0 mid)
    (inRows : row < rows.toNat) :
    Quantized mem target scales x size scaleKind kind (row + 1) 0 0
      (forRange 0 (ceilDiv depth size).toNat mid
        (quantizeGroup target scales x scaleKind kind size row)) := by
  -- the groups that are done end where the next one starts, or at the end of the row
  have done := forRange_induction
    (fun group later => Quantized mem target scales x size scaleKind kind row group
      (min depth.toNat (group * size.toNat)) later) (Nat.zero_le (ceilDiv depth size).toNat)
    mid (quantizeGroup target scales x scaleKind kind size row)
    (by simpa using before) fun group later _ inGroups reached => by
      have start := (chunkRange_eq ready.some ready.fits inGroups).2
      rw [Nat.min_eq_right (Nat.le_of_lt start)] at reached
      exact reached.nextGroup ready inRows inGroups
  rw [Nat.min_eq_left (le_ceilDiv_mul ready.some ready.fits)] at done
  refine ⟨done.rewritten, done.numbers.congr fun index inside => ?_,
    done.scales.congr fun index inside => ?_⟩
  · rw [ready.targetShape] at inside
    exact Shape.before_row inside
  · rw [ready.scalesShape] at inside
    exact Shape.before_row inside

end Quantized

/-- On operands that it takes, group quantization loops over all rows and groups. -/
private theorem runGroupQuantize_eq
    (ready : GroupOperands mem target scales x rows depth size scaleKind kind) :
    runGroupQuantize target scales x size mem = .ok (forRange 0 rows.toNat mem fun mid row =>
      forRange 0 (ceilDiv depth size).toNat mid
        (quantizeGroup target scales x scaleKind kind size row)) := by
  have rank : scales.rank = 2 := by
    rw [View.rank, ready.scalesShape]
    rfl
  obtain ⟨sourceRows, depths⟩ := View.extent_pair ready.sourceShape
  obtain ⟨scaleRows, groups⟩ := View.extent_pair ready.scalesShape
  simp only [runGroupQuantize, ready.targetKind, ready.scalesKind, ready.sourceKind, sourceRows,
    depths, rank, scaleRows, groups, BEq.rfl, Bool.and_self, require, if_true,
    ElementKind.decodable, ElementKind.encodable, pure_bind]
  split
  · -- the kernel returns early on no rows or no groups, where the loops do nothing either
    next empty =>
    rw [forRange_empty empty]
    rfl
  · rfl

/-- Group quantization measures the scale of each group and divides its numbers by it. -/
theorem runGroupQuantize_spec
    (ready : GroupOperands mem target scales x rows depth size scaleKind kind) :
    ∃ after, runGroupQuantize target scales x size mem = .ok after ∧
      (∀ row < rows.toNat, ∀ column < depth.toNat,
        after.load target [row, column] = groupWord mem x kind size [row, column]) ∧
      ∀ row < rows.toNat, ∀ group < (ceilDiv depth size).toNat,
        after.load scales [row, group] = scaleWord mem x scaleKind kind size [row, group] := by
  -- Before a row is begun all rows above it are in place; a row is done group by group.
  have done := forRange_induction
    (fun row later => Quantized mem target scales x size scaleKind kind row 0 0 later)
    (Nat.zero_le rows.toNat) mem
    (fun mid row => forRange 0 (ceilDiv depth size).toNat mid
      (quantizeGroup target scales x scaleKind kind size row))
    ⟨.refl _ _, (Filled.start ..).congr fun index _ => by simp [Shape.before_zero],
      (Filled.start ..).congr fun index _ => by simp [Shape.before_zero]⟩
    fun row later _ inRows reached => reached.nextRow ready inRows
  refine ⟨_, runGroupQuantize_eq ready, ?_, ?_⟩
  · intro row inRows column inColumns
    refine done.numbers.written _ ?_ (.inl inRows)
    rw [ready.targetShape]
    exact Shape.within_of_lt inRows inColumns
  · intro row inRows group inGroups
    refine done.scales.written _ ?_ (.inl inRows)
    rw [ready.scalesShape]
    exact Shape.within_of_lt inRows inGroups

end Group

end Kernel

end QuantLinear
