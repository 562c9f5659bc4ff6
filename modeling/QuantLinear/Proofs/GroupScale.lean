import QuantLinear.Proofs.StaticScale

/-!
Group quantization over the whole range of single precision.

The scale of a group is measured so that its largest magnitude lands on 448, the last number of the
eight bit format. Two roundings lie between: the one of the scale and the one of the quotient. Neither
brings the quotient below 440, from where on everything is stored as 448 (`quotientCode_peak`). A group
with an infinite element has an infinite scale, which takes finite elements to zero and leaves infinite
ones without a quotient.
-/

namespace QuantLinear

namespace Binary32

variable {x y peak : Binary32}

private theorem abs_eq (x : Binary32) : x.abs = ofNat (Format.binary32.word false x.code) := by
  simp [abs, Format.word]

@[simp] theorem code_abs (x : Binary32) : x.abs.code = x.code := by
  rw [abs_eq, code_ofNat, Format.code_word _ _ x.code_lt]

@[simp] theorem isNegative_abs (x : Binary32) : x.abs.isNegative = false := by
  rw [abs_eq, isNegative_ofNat, Format.isNegative_word _ _ x.code_lt]

@[simp] theorem isNaN_abs (x : Binary32) : x.abs.isNaN = x.isNaN := by
  rw [Bool.eq_iff_iff, isNaN_iff, isNaN_iff, code_abs]

/-- Numbers without a sign are ordered like their codes. -/
private theorem lt_iff_code (first : x.isNegative = false) (second : y.isNegative = false) :
    x.lt y = true ↔ x.isNaN = false ∧ y.isNaN = false ∧ x.code < y.code := by
  simp [lt, rank, signed, first, second, and_assoc]

/-- Whether a number is the largest magnitude among some numbers, with NaNs passed over; it is zero
where there is no other. -/
structure IsPeak (peak : Binary32) (among : Nat → Prop) (numbers : Nat → Binary32) : Prop where
  upper : ∀ p, among p → peak.lt (numbers p).abs = false
  attained : peak = 0 ∨ ∃ p, among p ∧ (numbers p).isNaN = false ∧ peak = (numbers p).abs

namespace IsPeak

variable {among others : Nat → Prop} {numbers : Nat → Binary32}

private theorem isNegative_eq (peaks : IsPeak peak among numbers) : peak.isNegative = false := by
  rcases peaks.attained with zero | ⟨p, -, -, same⟩
  · rw [zero]
    decide
  · rw [same, isNegative_abs]

private theorem isNaN_eq (peaks : IsPeak peak among numbers) : peak.isNaN = false := by
  rcases peaks.attained with zero | ⟨p, -, number, same⟩
  · rw [zero]
    decide
  · rw [same, isNaN_abs, number]

private theorem code_le (peaks : IsPeak peak among numbers) {p : Nat} (member : among p)
    (number : (numbers p).isNaN = false) : (numbers p).code ≤ peak.code := by
  have upper := peaks.upper p member
  rw [← Bool.not_eq_true, lt_iff_code peaks.isNegative_eq (isNegative_abs _), isNaN_abs,
    code_abs] at upper
  exact Nat.le_of_not_lt fun above => upper ⟨peaks.isNaN_eq, number, above⟩

theorem congr (peaks : IsPeak peak among numbers) (same : ∀ p, others p ↔ among p) :
    IsPeak peak others numbers where
  upper p member := peaks.upper p ((same p).mp member)
  attained := peaks.attained.imp_right fun ⟨p, member, rest⟩ => ⟨p, (same p).mpr member, rest⟩

/-- The peak with one more number. -/
theorem max (peaks : IsPeak peak among numbers) (next : Nat) :
    IsPeak (peak.max (numbers next).abs) (fun p => among p ∨ p = next) numbers := by
  rw [Binary32.max]
  by_cases above : peak.lt (numbers next).abs = true
  · rw [if_pos above]
    obtain ⟨-, number, higher⟩ :=
      (lt_iff_code peaks.isNegative_eq (isNegative_abs _)).mp above
    rw [code_abs] at higher
    rw [isNaN_abs] at number
    constructor
    case upper =>
      rintro p member
      rw [← Bool.not_eq_true, lt_iff_code (isNegative_abs _) (isNegative_abs _)]
      simp only [isNaN_abs, code_abs]
      rintro ⟨-, other, further⟩
      -- the old peak was not below the number, and it is below the new one
      rcases member with old | rfl
      · have below := peaks.code_le old other
        omega
      · exact absurd further (Nat.lt_irrefl _)
    case attained => exact .inr ⟨next, .inr rfl, number, rfl⟩
  · rw [if_neg above]
    constructor
    case upper =>
      rintro p (old | rfl)
      · exact peaks.upper p old
      · exact Bool.not_eq_true _ ▸ above
    case attained =>
      exact peaks.attained.imp_right fun ⟨p, member, rest⟩ => ⟨p, .inl member, rest⟩

end IsPeak

end Binary32

namespace Kernel

open Binary32 (unitsInOne unitsInOne_pos quotientCode)

/-- What is folded over the columns of a row is the peak of the row. -/
private theorem isPeak_rowPeak (mem : Memory) (x : View) (kind : FloatKind) (row : Nat) {lo hi : Nat}
    (ordered : lo ≤ hi) : (rowPeak mem x kind row lo hi).IsPeak (fun p => lo ≤ p ∧ p < hi)
      fun p => mem.number x kind [row, p] := by
  -- the columns before the one that the loop has come to have the peak it carries
  refine forRange_induction (fun (column : Nat) (peak : Binary32) =>
    peak.IsPeak (fun p => lo ≤ p ∧ p < column) fun p => mem.number x kind [row, p]) ordered 0 _ ?_ ?_
  · exact ⟨fun p member => by omega, .inl rfl⟩
  · intro column peak above _ peaks
    exact (peaks.max column).congr fun p => by omega

/-- The largest magnitude of the eight bit format in units, and the bounds that the arithmetic below
needs of the smallest peak and of the number 440. -/
private theorem units_float8Limit : float8Limit.datum = .finite false (448 * unitsInOne) ∧
    448 * 28 ≤ Format.binary32.units smallestPeak.code ∧
    Format.binary32.units 0x43DC0000 = 440 * unitsInOne ∧
    Format.float8.narrowedCode 0x43DC0000 = Format.float8.topCode := by
  decide +kernel

variable {top : Nat}

/-- A peak divided by the number of units in its scale's limit. -/
private theorem quotient_float8Limit (top : Nat) :
    ((Format.binary32.units top * unitsInOne : Nat) : ℚ) / (448 * unitsInOne : Nat) =
      Format.binary32.units top / 448 := by
  have one : (unitsInOne : ℚ) ≠ 0 := Nat.cast_ne_zero.mpr unitsInOne_pos.ne'
  push_cast
  rw [mul_div_mul_right _ _ one]

/-- The scale of a finite peak is positive and finite. -/
private theorem quotientCode_float8Limit (large : smallestPeak.code ≤ top)
    (finite : top < Format.binary32.topCode) :
    0 < quotientCode (448 * unitsInOne) top ∧
      quotientCode (448 * unitsInOne) top ≤ Format.binary32.lastCode := by
  have limit : 0 < 448 * unitsInOne := Nat.mul_pos (by decide) unitsInOne_pos
  have grown := Format.binary32.units_strictMono.monotone large
  have above := units_float8Limit.2.1.trans grown
  constructor
  · apply Format.le_roundedCode (by decide) limit (by decide)
    have units : (12544 : ℚ) ≤ Format.binary32.units top := by exact_mod_cast above
    have first : Format.binary32.units 1 = 1 := by decide
    rw [quotient_float8Limit, Nat.succ_eq_add_one, Nat.zero_add, first]
    push_cast
    linarith
  · apply Format.roundedCode_le_code (by decide) limit Format.binary32.lastCode_le
    have inside : top ≤ Format.binary32.lastCode := Nat.le_pred_of_lt finite
    have units : (Format.binary32.units top : ℚ) ≤
        Format.binary32.units Format.binary32.lastCode := by
      exact_mod_cast Format.binary32.units_strictMono.monotone inside
    have positive : (0 : ℚ) ≤ Format.binary32.units top := Nat.cast_nonneg _
    rw [quotient_float8Limit]
    linarith

/-- The rounded scale is not so much above the exact one that its peak would come out below 440. -/
private theorem units_quotientCode_le (large : smallestPeak.code ≤ top) :
    440 * Format.binary32.units (quotientCode (448 * unitsInOne) top) ≤
      Format.binary32.units top := by
  have limit : 0 < 448 * unitsInOne := Nat.mul_pos (by decide) unitsInOne_pos
  have above := units_float8Limit.2.1.trans (Format.binary32.units_strictMono.monotone large)
  have units : (12544 : ℚ) ≤ Format.binary32.units top := by exact_mod_cast above
  -- the scale has many units, so that it is rounded by less than one part in 56
  have near := @Format.near_nearestCode .binary32 (Format.binary32.units top * unitsInOne) _ (by decide)
    limit
  rw [quotient_float8Limit] at near
  have bound : max 1 ((Format.binary32.units top : ℚ) / 448 / 2 ^ Format.binary32.fractionBits) ≤
      Format.binary32.units top / 448 / 28 := by
    apply max_le
    · linarith
    · have bits : (2 : ℚ) ^ Format.binary32.fractionBits = 8388608 := by norm_num [Format.binary32]
      rw [bits]
      linarith
  have upper := (le_abs_self _).trans
    ((le_div_iff₀' (by norm_num : (0 : ℚ) < 2)).mpr (near.trans bound))
  have rounded : (Format.binary32.units (quotientCode (448 * unitsInOne) top) : ℚ) ≤
      Format.binary32.units
        (Format.binary32.nearestCode (Format.binary32.units top * unitsInOne) (448 * unitsInOne)) := by
    exact_mod_cast Format.binary32.units_strictMono.monotone
      (Format.binary32.roundedCode_le_nearestCode ..)
  have cast : (440 * Format.binary32.units (quotientCode (448 * unitsInOne) top) : ℚ) ≤
      Format.binary32.units top := by linarith
  exact_mod_cast cast

/-- A peak divided by its scale and stored in eight bits is the last number. -/
private theorem narrowedCode_peak (large : smallestPeak.code ≤ top)
    (finite : top < Format.binary32.topCode) :
    Format.float8.narrowedCode (quotientCode
      (Format.binary32.units (quotientCode (448 * unitsInOne) top)) top) =
        Format.float8.topCode := by
  have some := Format.binary32.units_pos (quotientCode_float8Limit large finite).1
  have room := Nat.mul_le_mul_right unitsInOne (units_quotientCode_le large)
  obtain ⟨-, -, bound, last⟩ := units_float8Limit
  have reached : 0x43DC0000 ≤ quotientCode
      (Format.binary32.units (quotientCode (448 * unitsInOne) top)) top := by
    apply Format.le_roundedCode (by decide) some (by decide)
    rw [bound, le_div_iff₀ (Nat.cast_pos.mpr some)]
    rw [Nat.mul_right_comm] at room
    exact_mod_cast room
  apply Nat.le_antisymm (Format.float8.narrowedCode_le _)
  rw [← last]
  exact Format.narrowedCode_mono (by decide) reached

variable {peak : Binary32}

/-- The larger one of a peak and the smallest peak. -/
private theorem max_smallestPeak (sign : peak.isNegative = false) (number : peak.isNaN = false) :
    (peak.max smallestPeak).isNegative = false ∧ (peak.max smallestPeak).isNaN = false ∧
      (peak.max smallestPeak).code = max peak.code smallestPeak.code := by
  have positive : smallestPeak.isNegative = false ∧ smallestPeak.isNaN = false := by decide
  have order := Binary32.lt_iff_code sign positive.1
  rw [Binary32.max]
  by_cases below : peak.lt smallestPeak = true
  · rw [if_pos below]
    exact ⟨positive.1, positive.2, (max_eq_right (order.mp below).2.2.le).symm⟩
  · rw [if_neg below]
    have above : smallestPeak.code ≤ peak.code :=
      Nat.le_of_not_lt fun less => below (order.mpr ⟨number, positive.2, less⟩)
    exact ⟨sign, number, (max_eq_left above).symm⟩

/-- The scale of a finite peak is a positive number that takes the peak to the last number of eight
bits; the scale of an infinite one is infinite. -/
private theorem datum_groupScale (sign : peak.isNegative = false) (number : peak.isNaN = false) :
    if peak.isFinite = true then
      ∃ units, 0 < units ∧ (groupScale peak).datum = .finite false units ∧
        (smallestPeak.code ≤ peak.code →
          Format.float8.narrowedCode (quotientCode units peak.code) = Format.float8.topCode)
    else (groupScale peak).datum = .infinite false := by
  obtain ⟨topSign, topNumber, topCode⟩ := max_smallestPeak sign number
  have limit := units_float8Limit.1
  have smallest : smallestPeak.code < Format.binary32.topCode := by decide
  rw [groupScale]
  split
  · next finite =>
    have inside : (peak.max smallestPeak).code < Format.binary32.topCode := by
      rw [topCode]
      exact max_lt (Binary32.isFinite_iff.mp finite) smallest
    have large : smallestPeak.code ≤ (peak.max smallestPeak).code := by
      rw [topCode]
      exact le_max_right _ _
    have quotient := Binary32.div_eq (Binary32.isFinite_iff.mpr inside)
      (Nat.mul_pos (by decide) unitsInOne_pos) limit
    obtain ⟨some, last⟩ := quotientCode_float8Limit large inside
    have fits := last.trans Format.binary32.lastCode_le
    have scaled : (peak.max smallestPeak / float8Limit).isFinite = true := by
      rw [quotient, Binary32.isFinite_iff, Binary32.code_ofNat_word fits]
      exact Nat.lt_of_le_of_lt last (by decide)
    refine ⟨_, Format.binary32.units_pos some, ?_, fun reached => ?_⟩
    · rw [Binary32.datum_of_isFinite scaled, quotient, Binary32.isNegative_ofNat_word fits,
        Binary32.code_ofNat_word fits, topSign]
    · rw [topCode, max_eq_left reached]
      exact narrowedCode_peak reached (Binary32.isFinite_iff.mp finite)
  · next unbounded =>
    -- a peak that is neither finite nor a NaN is infinite
    have top : peak.code = Format.binary32.topCode := by
      rw [Binary32.isFinite_iff] at unbounded
      rw [← Bool.not_eq_true, Binary32.isNaN_iff] at number
      exact Nat.le_antisymm (Nat.not_lt.mp number) (Nat.not_lt.mp unbounded)
    have infinite := Binary32.datum_of_topCode
      (topCode.trans (by rw [top, max_eq_left smallest.le]))
    rw [Binary32.infinite_div infinite limit, topSign]
    decide

/-- Finite numbers that are divided by the scale of a group and stored in eight bits: their codes grow
with theirs, and a peak that is not too small gets the last one. -/
private theorem encode_div_groupScale (sign : peak.isNegative = false) (number : peak.isNaN = false) :
    ∃ stored : Nat → Nat, Monotone stored ∧ stored 0 = 0 ∧
      (∀ code, stored code ≤ Format.float8.topCode) ∧
      (∀ x : Binary32, x.isFinite = true → FloatKind.f8.encode (x / groupScale peak) =
        Format.float8.word x.isNegative (stored x.code)) ∧
      (peak.isFinite = true → smallestPeak.code ≤ peak.code →
        stored peak.code = Format.float8.topCode) := by
  have scale := datum_groupScale sign number
  split at scale
  · next finite =>
    obtain ⟨units, some, datum, last⟩ := scale
    refine ⟨fun code => Format.float8.narrowedCode (quotientCode units code), ?_, by simp, ?_, ?_, ?_⟩
    · exact (Format.narrowedCode_mono (by decide)).comp (Binary32.quotientCode_mono some)
    · exact fun code => Format.float8.narrowedCode_le _
    · intro x inside
      rw [Binary32.div_eq inside some datum,
        FloatKind.encode_f8_word _ (Binary32.quotientCode_le ..)]
    · exact fun _ reached => last reached
  · next unbounded =>
    -- an infinite scale takes every number to a zero of its sign
    refine ⟨fun _ => 0, monotone_const, rfl, fun _ => Nat.zero_le _, fun x inside => ?_,
      fun finite => absurd finite unbounded⟩
    rw [Binary32.div_infinite inside scale, Binary32.zero,
      FloatKind.encode_f8_word _ (Nat.zero_le _), Format.narrowedCode_zero]

/-- What is not finite and not above the peak has no quotient by the scale. -/
private theorem isNaN_div_groupScale (sign : peak.isNegative = false) (number : peak.isNaN = false)
    {x : Binary32} (unbounded : x.isFinite = false)
    (below : x.isNaN = false → x.code ≤ peak.code) : (x / groupScale peak).isNaN = true := by
  by_cases nan : x.isNaN = true
  · exact Binary32.isNaN_div nan _
  · have reached := below (Bool.not_eq_true _ ▸ nan)
    have scale := datum_groupScale sign number
    have infinite : ¬peak.isFinite = true := fun finite => by
      have inside := Nat.lt_of_le_of_lt reached (Binary32.isFinite_iff.mp finite)
      rw [Binary32.isFinite_iff.mpr inside] at unbounded
      cases unbounded
    rw [if_neg infinite] at scale
    exact Binary32.isNaN_div_infinite unbounded scale

/-- The columns of a group: all groups are as wide as the first, except that the last one ends with
the row. -/
def InGroup (depth size group column : Nat) : Prop :=
  group * size ≤ column ∧ column < min depth ((group + 1) * size)

/-- A column lies in the group that its quotient names and in no other one. -/
private theorem inGroup_iff {depth size group column : Nat} (inside : column < depth) :
    InGroup depth size group column ↔ 0 < size ∧ column / size = group := by
  rw [InGroup, lt_min_iff, and_iff_right inside]
  constructor
  · rintro ⟨above, below⟩
    refine ⟨Nat.pos_of_ne_zero ?_, Nat.div_eq_of_lt_le above below⟩
    rintro rfl
    exact absurd below (Nat.not_lt_zero _)
  · rintro ⟨some, rfl⟩
    exact ⟨Nat.div_mul_le_self .., Nat.lt_mul_of_div_lt (Nat.lt_succ_self _) some⟩

/-- Each column lies in one of the groups of its axis and in no other one. -/
theorem existsUnique_inGroup {depth size : UInt64} (some : size ≠ 0)
    (fits : depth.toNat + size.toNat - 1 < 2 ^ 64) {column : Nat} (inside : column < depth.toNat) :
    ∃! group, group < (ceilDiv depth size).toNat ∧
      InGroup depth.toNat size.toNat group column := by
  refine ⟨column / size.toNat, ⟨div_lt_ceilDiv some fits inside,
    (inGroup_iff inside).mpr ⟨toNat_pos_of_ne_zero some, rfl⟩⟩, ?_⟩
  rintro group ⟨-, member⟩
  exact ((inGroup_iff inside).mp member).2.symm

/-- What group quantization makes of the columns of one group of a row. -/
structure GroupQuantized (before : Memory) (x : View) (kind : FloatKind) (after : Memory)
    (target scales : View) (row group : Nat) (columns : Nat → Prop) (peak : Binary32) : Prop where
  largest : peak.IsPeak columns fun p => before.number x kind [row, p]
  scale : after.number scales .f32 [row, group] = peak.max smallestPeak / float8Limit
  positive : (0 : Binary32).lt (after.number scales .f32 [row, group]) = true
  /-- NaNs stand for what is not finite, and for nothing else. -/
  nan : ∀ p, columns p → (FloatKind.f8.isNaN (after.load target [row, p]) = true ↔
    (before.number x kind [row, p]).isFinite = false)
  inOrder : before.InOrder x kind after target fun i =>
    ∃ p, columns p ∧ i = [row, p] ∧ (before.number x kind i).isFinite = true
  /-- The largest magnitude of a group without infinities and NaNs becomes 448 with its sign. -/
  full : (∀ p, columns p → (before.number x kind [row, p]).isFinite = true) →
    smallestPeak.value ≤ peak.value → ∀ p, columns p → (before.number x kind [row, p]).abs = peak →
      after.load target [row, p] =
        Format.float8.word (before.number x kind [row, p]).isNegative 0x7E

/-- A peak of finite numbers is finite. -/
private theorem isFinite_of_isPeak {columns : Nat → Prop} {numbers : Nat → Binary32}
    (peaks : peak.IsPeak columns numbers) (finite : ∀ p, columns p → (numbers p).isFinite = true) :
    peak.isFinite = true := by
  rcases peaks.attained with zero | ⟨p, member, -, same⟩
  · rw [zero]
    decide
  · rw [same, Binary32.isFinite_iff, Binary32.code_abs]
    exact Binary32.isFinite_iff.mp (finite p member)

/-- The scale of a group is positive. -/
private theorem zero_lt_groupScale (sign : peak.isNegative = false) (number : peak.isNaN = false) :
    (0 : Binary32).lt (groupScale peak) = true := by
  have zero : (0 : Binary32).isNegative = false ∧ (0 : Binary32).isNaN = false ∧
      (0 : Binary32).code = 0 := by decide
  have scale := datum_groupScale sign number
  -- a word with a sign and units, or with a sign and no end, has the sign and the code of these
  have positive (positiveSign : (groupScale peak).isNegative = false)
      (proper : (groupScale peak).isNaN = false) (some : 0 < (groupScale peak).code) :
      (0 : Binary32).lt (groupScale peak) = true :=
    (Binary32.lt_iff_code zero.1 positiveSign).mpr ⟨zero.2.1, proper, zero.2.2 ▸ some⟩
  have proper (datum : (groupScale peak).datum ≠ .nan) : (groupScale peak).isNaN = false :=
    Bool.eq_false_iff.mpr fun nan => datum (Format.datum_of_isNaN nan)
  split at scale
  · obtain ⟨units, some, datum, -⟩ := scale
    obtain ⟨plain, count, -⟩ := Format.code_of_datum_finite datum
    refine positive plain (proper (by simp [datum])) (Nat.pos_of_ne_zero fun none => ?_)
    have code : Format.binary32.code (groupScale peak).toNat = 0 := none
    rw [code, Format.units_zero] at count
    exact Nat.ne_of_gt some count
  · obtain ⟨plain, code⟩ := Format.code_of_datum_infinite scale
    refine positive plain (proper (by simp [scale])) ?_
    exact Nat.lt_of_lt_of_eq (by decide) code.symm

section Groups

/-- What group quantization has found in order where it is done. -/
private theorem runGroupQuantize_accepted {target scales x : View} {rows depth size : UInt64}
    {mem after : Memory} (shape : x.shape = [rows, depth]) (some : size ≠ 0)
    (fits : depth.toNat + size.toNat - 1 < 2 ^ 64)
    (ran : runGroupQuantize target scales x size mem = .ok after) :
    target.kind = .float .f8 ∧ scales.shape = [rows, ceilDiv depth size] ∧
      ∃ kind, ∀ index, x.shape.Within index → x.kind = .float kind := by
  have scalesShape := runGroupQuantize_scales ran
  obtain ⟨extent, columns⟩ := View.extent_pair shape
  simp only [runGroupQuantize, bind_eq_ok, require_eq_ok, beq_iff_eq] at ran
  obtain ⟨-, output, -, -, ran⟩ := ran
  rw [extent, columns] at scalesShape ran
  refine ⟨output, scalesShape, ?_⟩
  split at ran
  · next empty =>
    -- without rows or groups there is no element whose kind would be asked for
    refine ⟨.f32, fun index inside => ?_⟩
    rw [shape] at inside
    obtain ⟨row, inRows, column, inColumns, -⟩ := Shape.within_pair.mp inside
    have inGroups := div_lt_ceilDiv some fits inColumns
    rcases empty with none | none
    · simp [none] at inRows
    · simp [none] at inGroups
  · simp only [bind_eq_ok, ElementKind.decodable_eq_ok] at ran
    obtain ⟨kind, float, -⟩ := ran
    exact ⟨kind, fun _ _ => float⟩

variable {mem after : Memory} {target scales x : View} {rows depth size : UInt64} {kind : FloatKind}

/-- Group quantization that is done has quantized every group of every row. -/
private theorem runGroupQuantize_groups
    (ready : GroupOperands mem target scales x rows depth size .f32 kind)
    (ran : runGroupQuantize target scales x size mem = .ok after) {row group : Nat}
    (inRows : row < rows.toNat) (inGroups : group < (ceilDiv depth size).toNat) :
    ∃ peak, GroupQuantized mem x kind after target scales row group
      (InGroup depth.toNat size.toNat group) peak := by
  obtain ⟨_, same, words, scaleWords⟩ := runGroupQuantize_spec ready
  cases ran.symm.trans same
  have start := (chunkRange_eq ready.some ready.fits inGroups).2
  have columns (p : Nat) : InGroup depth.toNat size.toNat group p ↔
      group * size.toNat ≤ p ∧ p < min depth.toNat (group * size.toNat + size.toNat) := by
    rw [InGroup, Nat.succ_mul]
  obtain ⟨peak, carried⟩ : ∃ peak, peak = rowPeak mem x kind row (group * size.toNat)
    (min depth.toNat (group * size.toNat + size.toNat)) := ⟨_, rfl⟩
  have peaks : peak.IsPeak (InGroup depth.toNat size.toNat group) fun p =>
      mem.number x kind [row, p] := by
    rw [carried]
    exact (isPeak_rowPeak mem x kind row (by omega)).congr columns
  have measured : measuredScale mem x kind size row group = groupScale peak := by
    rw [measuredScale, carried, ready.extent]
  have word (p : Nat) (member : InGroup depth.toNat size.toNat group p) :
      after.load target [row, p] =
        FloatKind.f8.encode (mem.number x kind [row, p] / groupScale peak) := by
    have inside : p < depth.toNat := Nat.lt_of_lt_of_le member.2 (Nat.min_le_left ..)
    rw [words row inRows p inside, groupWord, ((inGroup_iff inside).mp member).2, measured]
  obtain ⟨stored, mono, zero, fits, codes, last⟩ :=
    encode_div_groupScale peaks.isNegative_eq peaks.isNaN_eq
  have scale : after.number scales .f32 [row, group] = groupScale peak := by
    rw [Memory.number, scaleWords row inRows group inGroups, scaleWord, measured,
      FloatKind.f32_decode_encode]
  have inOrder : mem.InOrder x kind after target fun i =>
      ∃ p, InGroup depth.toNat size.toNat group p ∧ i = [row, p] ∧
        (mem.number x kind i).isFinite = true := by
    apply Memory.InOrder.of_codes mono zero fits
    · rintro i ⟨p, -, -, finite⟩
      exact finite
    · rintro i ⟨p, member, rfl, finite⟩
      rw [word p member, codes _ finite]
  refine ⟨peak, peaks, scale, ?_, fun p member => ⟨fun nan => ?_, fun unbounded => ?_⟩, inOrder, ?_⟩
  · rw [scale]
    exact zero_lt_groupScale peaks.isNegative_eq peaks.isNaN_eq
  · by_contra finite
    have number := inOrder.number [row, p] ⟨p, member, rfl, Bool.not_eq_false _ ▸ finite⟩
    rw [nan] at number
    cases number
  · rw [word p member]
    apply FloatKind.isNaN_encode
    exact isNaN_div_groupScale peaks.isNegative_eq peaks.isNaN_eq unbounded
      fun number => peaks.code_le member number
  · intro finite large p member top
    have inside := isFinite_of_isPeak peaks finite
    -- both numbers are without a sign, so that their values are in the order of their codes
    have reached : smallestPeak.code ≤ peak.code := by
      rw [Binary32.value_of_isFinite inside, Binary32.value_of_isFinite (by decide),
        peaks.isNegative_eq] at large
      exact Format.binary32.magnitude_strictMono.le_iff_le.mp large
    have code : (mem.number x kind [row, p]).code = peak.code := by rw [← top, Binary32.code_abs]
    rw [word p member, codes _ (finite p member), code, last inside reached]
    rfl

end Groups

end Kernel

/-- A call of group quantization that is accepted, with single precision scales, cuts each row into
groups so that every column lies in one of them, and quantizes each group by a scale of its own. -/
theorem groupQuantizeInto_groups {target scales x : Tensor} {size : UInt64} {before after : Machine}
    (scalesKind : scales.kind = .float .f32) (targetSeparate : before.memory.Separate target.toView)
    (scalesSeparate : before.memory.Separate scales.toView)
    (targetApart : target.toView.Disjoint scales.toView)
    (sourceApart : ∀ v ∈ [target.toView, scales.toView], v.Disjoint x.toView)
    (fits : (x.extent 1).toNat + size.toNat - 1 < 2 ^ 64)
    (returned : groupQuantizeInto (some target) (some scales) (some x) size before = .ok () after) :
    ∃ rows depth groups kind, x.shape = [rows, depth] ∧ target.shape = [rows, depth] ∧
      scales.shape = [rows, groups] ∧ target.kind = .float .f8 ∧
      (∀ index, x.shape.Within index → x.kind = .float kind) ∧
      (∀ column < depth.toNat, ∃! group,
        group < groups.toNat ∧ Kernel.InGroup depth.toNat size.toNat group column) ∧
      ∀ row < rows.toNat, ∀ group < groups.toNat, ∃ peak,
        Kernel.GroupQuantized before.memory x.toView kind after.memory target.toView scales.toView row
          group (Kernel.InGroup depth.toNat size.toNat group) peak := by
  obtain ⟨rank, shape, some⟩ :=
    (ends_groupQuantizeInto_passed target scales x size before).answer returned
  have ran := ((ends_groupQuantizeInto target scales x size before).answer returned).2
  obtain ⟨rows, depth, pair⟩ := List.length_eq_two.mp rank
  rw [(View.extent_pair pair).2] at fits
  obtain ⟨output, scalesShape, kind, float⟩ := Kernel.runGroupQuantize_accepted pair some fits ran
  refine ⟨rows, depth, ceilDiv depth size, kind, pair, shape.trans pair, scalesShape, output, float,
    fun column inside => Kernel.existsUnique_inGroup some fits inside,
    fun row inRows group inGroups => ?_⟩
  · -- a group has a first column
    have start := (chunkRange_eq some fits inGroups).2
    have known := float [row, group * size.toNat] (by
      rw [pair]
      exact Shape.within_of_lt inRows start)
    exact Kernel.runGroupQuantize_groups {
      targetSeparate := targetSeparate
      scalesSeparate := scalesSeparate
      targetKind := output
      scalesKind := scalesKind
      sourceKind := known
      targetShape := shape.trans pair
      scalesShape := scalesShape
      sourceShape := pair
      targetApart := targetApart
      sourceApart := sourceApart
      some := some
      fits := fits } ran inRows inGroups

/-- A row of the numbers two, minus one and one half, with room for its codes and two scales. -/
def withRow : Machine :=
  .holding #[#[0, 0, 0], Array.replicate 8 0,
    #[0, 0, 0, 0x40, 0, 0, 0x80, 0xBF, 0, 0, 0, 0x3F]]

/-- The last group of the row is narrower than the first. -/
theorem groupQuantizeInto_groups_row :
    let target : Tensor := .covering 0 (.float .f8) [1, 3]
    let scales : Tensor := .covering 1 (.float .f32) [1, 2]
    let x : Tensor := .covering 2 (.float .f32) [1, 3]
    ∃ after, groupQuantizeInto (some target) (some scales) (some x) 2 withRow = .ok () after ∧
      ∀ group < 2, ∃ peak, Kernel.GroupQuantized withRow.memory x.toView .f32 after.memory target.toView
        scales.toView 0 group (Kernel.InGroup 3 2 group) peak := by
  intro target scales x
  have returns : (match groupQuantizeInto (some target) (some scales) (some x) 2 withRow with
    | .ok _ _ => true
    | .error _ _ => false) = true := by decide +kernel
  split at returns
  · next after returned =>
    have targetRoom : withRow.memory.Dense target.toView :=
      Memory.dense_covering (by decide) (by decide) (by decide)
    have scalesRoom : withRow.memory.Dense scales.toView :=
      Memory.dense_covering (by decide) (by decide) (by decide)
    obtain ⟨rows, depth, groups, kind, shape, -, scalesShape, -, float, -, quantized⟩ :=
      groupQuantizeInto_groups rfl targetRoom.separate scalesRoom.separate
        (.of_storage (by decide))
        (by
          simp only [List.forall_mem_cons, List.not_mem_nil, false_imp_iff, implies_true, and_true]
          exact ⟨.of_storage (by decide), .of_storage (by decide)⟩)
        (by decide) returned
    cases shape
    cases scalesShape
    cases float [0, 0] (Shape.within_of_lt (by decide) (by decide))
    exact ⟨after, returned, quantized 0 (by decide)⟩
  · cases returns

end QuantLinear
