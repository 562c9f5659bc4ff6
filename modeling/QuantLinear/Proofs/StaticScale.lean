import QuantLinear.Proofs.Numeric.Scaling
import QuantLinear.Proofs.Operations

/-!
Static quantization by any scale that it accepts.

A call is accepted with a positive finite scale, and the kernel multiplies by its reciprocal. Where the
reciprocal is finite, the eight bit words hold numbers that have the signs and the order of the elements
(`Memory.InOrder`). The reciprocal of a scale of at most `2 ^ -128` is infinite, and has no product with
zero: then zeros, and no other finite elements, become NaNs.
-/

namespace QuantLinear

/-- Whether eight bit words at some indices of `target` hold numbers with the signs of the elements of
`x` at these indices, in the order of these elements. -/
structure Memory.InOrder (before : Memory) (x : View) (kind : FloatKind) (after : Memory)
    (target : View) (among : Index → Prop) : Prop where
  number : ∀ i, among i → FloatKind.f8.isNaN (after.load target i) = false
  sign : ∀ i, among i →
    Format.float8.isNegative (after.load target i) = kind.format.isNegative (before.load x i)
  ordered : ∀ i j, among i → among j →
    (before.number x kind i).value ≤ (before.number x kind j).value →
    (after.number target .f8 i).value ≤ (after.number target .f8 j).value

/-- Words that hold the signs of finite numbers and codes that grow with theirs are in order. -/
theorem Memory.InOrder.of_codes {before after : Memory} {x target : View} {kind : FloatKind}
    {among : Index → Prop} {stored : Nat → Nat} (mono : Monotone stored) (zero : stored 0 = 0)
    (fits : ∀ code, stored code ≤ Format.float8.topCode)
    (finite : ∀ i, among i → (before.number x kind i).isFinite = true)
    (words : ∀ i, among i → after.load target i =
      Format.float8.word (before.number x kind i).isNegative
        (stored (before.number x kind i).code)) :
    before.InOrder x kind after target among := by
  have small (code : Nat) : stored code < Format.float8.signBit :=
    Nat.lt_of_le_of_lt (fits code) (by decide)
  have value (i : Index) (member : among i) : (after.number target .f8 i).value =
      withSign (before.number x kind i).isNegative
        (Format.float8.magnitude (stored (before.number x kind i).code)) := by
    rw [Binary32.value, Memory.number, FloatKind.number?_decode (.inl rfl), words i member]
    simp only [FloatKind.format, Format.number?_word Format.float8_proper _ (fits _),
      Option.getD_some]
  constructor
  case number =>
    intro i member
    rw [words i member, FloatKind.isNaN, ← Bool.not_eq_true, Format.isNaN_iff]
    simp only [FloatKind.format, Format.code_word _ _ (small _)]
    exact Nat.not_lt.mpr (fits _)
  case sign =>
    intro i member
    have proper : ¬kind.isNaN (before.load x i) = true := fun nan => by
      have none := Binary32.isNaN_of_isFinite (finite i member)
      exact absurd (kind.isNaN_decode nan) (Bool.not_eq_true _ ▸ none)
    rw [words i member, Format.isNegative_word _ _ (small _), Memory.number,
      kind.isNegative_decode proper]
  case ordered =>
    intro i j first second le
    rw [Binary32.value_of_isFinite (finite i first),
      Binary32.value_of_isFinite (finite j second)] at le
    rw [value i first, value j second]
    exact withSign_le mono zero le

namespace Kernel

variable {target x scale : View} {mem after : Memory}

/-- What static quantization has found in order where it is done. -/
private theorem runStaticQuantize_accepted (ran : runStaticQuantize target x scale mem = .ok after) :
    target.kind = .float .f8 ∧ scale.numel = 1 ∧ ∃ scaleKind, scale.kind = .float scaleKind ∧
      isDivisor (singleNumber mem scale scaleKind) = true ∧
      ∃ kind, ∀ index, x.shape.Within index → x.kind = .float kind := by
  simp only [runStaticQuantize, bind_eq_ok, require_eq_ok, beq_iff_eq,
    ElementKind.decodable_eq_ok] at ran
  obtain ⟨-, output, -, single, scaleKind, scaleFloat, -, usable, ran⟩ := ran
  refine ⟨output, single, scaleKind, scaleFloat, usable, ?_⟩
  split at ran
  · next empty =>
    -- the kind of an empty activation is not asked for
    refine ⟨.f32, fun index inside => ?_⟩
    rw [← Shape.mem_indices, Shape.indices, if_pos empty] at inside
    exact absurd inside List.not_mem_nil
  · simp only [bind_eq_ok, ElementKind.decodable_eq_ok] at ran
    obtain ⟨kind, float, -⟩ := ran
    exact ⟨kind, fun _ _ => float⟩

/-- The words that static quantization has written where it is done. -/
private theorem runStaticQuantize_words (separate : mem.Separate target)
    (shape : target.shape = x.shape)
    (apart : target.Disjoint x) (ran : runStaticQuantize target x scale mem = .ok after)
    {scaleKind kind : FloatKind} (scaleFloat : scale.kind = .float scaleKind)
    (float : x.kind = .float kind) {index : Index} (inside : x.shape.Within index) :
    after.load target index = FloatKind.f8.encode
      (mem.number x kind index * (Binary32.one / singleNumber mem scale scaleKind)) := by
  obtain ⟨output, single, _, sameFloat, usable, -⟩ := runStaticQuantize_accepted ran
  cases scaleFloat.symm.trans sameFloat
  have written := runStaticQuantize_spec separate output shape apart single scaleFloat float
  rw [if_pos usable] at written
  obtain ⟨reached, same, words⟩ := written
  cases ran.symm.trans same
  exact words index inside

/-- A number that can divide is positive and finite. -/
private theorem isDivisor_iff {factor : Binary32} : isDivisor factor = true ↔
    factor.isFinite = true ∧ factor.isNegative = false ∧ 0 < factor.code := by
  have zero : (0 : Binary32).isNaN = false ∧ (0 : Binary32).rank = 0 := by decide
  rw [isDivisor, Bool.and_eq_true, and_comm, and_congr_right_iff]
  intro finite
  have number := Binary32.isNaN_of_isFinite finite
  simp only [Binary32.lt, zero, number, Bool.not_false, Bool.true_and, decide_eq_true_eq]
  cases sign : factor.isNegative <;> simp [Binary32.rank, Binary32.signed, sign]

end Kernel

namespace Binary32

/-- The units of the last finite number, of the one after it, and of one over the quantum. -/
private theorem exists_units_ends : ∃ step : Nat, 0 < step ∧
    Format.binary32.units Format.binary32.lastCode = (2 ^ 24 - 1) * step ∧
    Format.binary32.units Format.binary32.topCode = 2 ^ 24 * step ∧
    Format.binary32.units one.code * unitsInOne = 2 ^ 45 * step :=
  ⟨2 ^ 253, by decide, by decide, by decide, by decide⟩

/-- The reciprocal of a number is infinite just where the number has no more than `2 ^ 21` units. -/
private theorem quotientCode_one {units : Nat} (some : 0 < units) :
    if units ≤ 2 ^ 21 then quotientCode units one.code = Format.binary32.topCode
    else quotientCode units one.code ≤ Format.binary32.lastCode := by
  obtain ⟨step, wide, last, top, one⟩ := exists_units_ends
  have positive : (0 : ℚ) < units := Nat.cast_pos.mpr some
  have wide : (0 : ℚ) < step := Nat.cast_pos.mpr wide
  rw [quotientCode, one]
  split
  · next small =>
    -- from halfway past the last number on everything becomes infinite
    apply Format.roundedCode_of_beyond Format.binary32 Format.binary32_proper rfl some
    rw [last, top, ← mul_div_assoc, le_div_iff₀ positive]
    have bound : (units : ℚ) ≤ 2 ^ 21 := by exact_mod_cast small
    have scaled := mul_le_mul_of_nonneg_left bound wide.le
    push_cast
    linarith
  · next large =>
    apply (Format.preferred_roundedCode Format.binary32 Format.binary32_proper some
      (fun flushes => by cases flushes) fun _ => ?_).1
    rw [last, top, ← mul_div_assoc, div_lt_iff₀ positive]
    have bound : (2 : ℚ) ^ 21 + 1 ≤ units := by exact_mod_cast Nat.lt_of_not_le large
    have scaled := mul_le_mul_of_nonneg_left bound wide.le
    push_cast
    linarith

/-- The reciprocal of a divisor is positive, and infinite just where the divisor is at most
`2 ^ -128`. -/
private theorem datum_reciprocal {factor : Binary32} (usable : Kernel.isDivisor factor = true) :
    if factor.value ≤ 2 ^ (-128 : ℤ) then (one / factor).datum = .infinite false
    else ∃ units, (one / factor).datum = .finite false units := by
  obtain ⟨finite, sign, some⟩ := Kernel.isDivisor_iff.mp usable
  have positive := Format.binary32.units_pos some
  have datum := datum_of_isFinite finite
  rw [sign] at datum
  have small : factor.value ≤ 2 ^ (-128 : ℤ) ↔ Format.binary32.units factor.code ≤ 2 ^ 21 := by
    have bound : (2 : ℚ) ^ (-128 : ℤ) = (2 ^ 21 : Nat) * 2 ^ Format.binary32.quantum := by
      norm_num [Format.binary32]
    rw [value_of_isFinite finite, sign, withSign, if_neg Bool.false_ne_true, Format.magnitude, bound,
      mul_le_mul_iff_left₀ Format.binary32.quantum_pos, Nat.cast_le]
  have quotient : one / factor = ofNat (Format.binary32.word false
      (quotientCode (Format.binary32.units factor.code) one.code)) :=
    div_eq (by decide) positive datum
  have code := quotientCode_one positive
  rw [quotient]
  simp only [small]
  split at code
  · next few =>
    rw [if_pos few, code]
    decide
  · next many =>
    have fits := code.trans Format.binary32.lastCode_le
    have inside : (ofNat (Format.binary32.word false
        (quotientCode (Format.binary32.units factor.code) one.code))).isFinite = true := by
      rw [isFinite_iff, code_ofNat_word fits]
      exact Nat.lt_of_le_of_lt code (by decide)
    rw [if_neg many, datum_of_isFinite inside, isNegative_ofNat_word fits]
    exact ⟨_, rfl⟩

/-- Numbers that are multiplied by the reciprocal of a divisor and stored in eight bits: their codes
grow with theirs, except that there is no such product with zero where the reciprocal is infinite. -/
private theorem encode_mul_reciprocal {factor : Binary32} (usable : Kernel.isDivisor factor = true) :
    ∃ stored : Nat → Nat, Monotone stored ∧ stored 0 = 0 ∧
      (∀ code, stored code ≤ Format.float8.topCode) ∧
      ∀ x : Binary32, x.isFinite = true → FloatKind.f8.encode (x * (one / factor)) =
        if x.value = 0 ∧ factor.value ≤ 2 ^ (-128 : ℤ) then 0xFF
        else Format.float8.word x.isNegative (stored x.code) := by
  have cases := datum_reciprocal usable
  split at cases
  · next small =>
    -- whatever is not zero becomes infinite, and is stored as the largest magnitude
    refine ⟨fun code => if code = 0 then 0 else Format.float8.topCode, ?_, rfl, ?_, ?_⟩
    · intro a b le
      by_cases none : a = 0
      · simp [none]
      · have some : b ≠ 0 := fun zero => none (Nat.le_zero.mp (zero ▸ le))
        simp [none, some]
    · intro code
      by_cases none : code = 0 <;> simp [none]
    · intro x finite
      have zero := value_eq_zero_iff finite
      rw [mul_infinite finite cases]
      by_cases none : x.code = 0
      · rw [if_pos none, if_pos ⟨zero.mpr none, small⟩]
        decide
      · have last : Format.float8.narrowedCode Format.binary32.topCode = Format.float8.topCode := by
          decide
        rw [if_neg none, if_neg (fun both => none (zero.mp both.1)), infinity,
          FloatKind.encode_f8_word _ le_rfl, last]
        exact congrArg _ (if_neg none).symm
  · next large =>
    obtain ⟨units, datum⟩ := cases
    refine ⟨fun code => Format.float8.narrowedCode (productCode units code), ?_, by simp, ?_, ?_⟩
    · exact (Format.narrowedCode_mono (by decide)).comp (productCode_mono units)
    · exact fun code => Format.float8.narrowedCode_le _
    · intro x finite
      rw [mul_eq finite datum, if_neg (fun both => large both.2),
        FloatKind.encode_f8_word _ (productCode_le ..)]

end Binary32

/-- A call of static quantization that is accepted stores its finite elements with their signs and in
their order, except for zeros where the scale is at most `2 ^ -128`: these, and no other finite
elements, become NaNs. -/
theorem staticQuantizeInto_inOrder {target x scale : Tensor} {before after : Machine}
    (separate : before.memory.Separate target.toView) (apart : target.toView.Disjoint x.toView)
    (returned : staticQuantizeInto (some target) (some x) (some scale) before = .ok () after) :
    ∃ scaleKind kind, scale.kind = .float scaleKind ∧ target.kind = .float .f8 ∧
      target.shape = x.shape ∧ (∀ i, x.shape.Within i → x.kind = .float kind) ∧
      let factor := Kernel.singleNumber before.memory scale.toView scaleKind
      let element := before.memory.number x.toView kind
      let finite := fun i => x.shape.Within i ∧ (element i).isFinite = true
      factor.isFinite = true ∧ 0 < factor.value ∧
      (∀ i, finite i → (FloatKind.f8.isNaN (after.memory.load target.toView i) = true ↔
        (element i).value = 0 ∧ factor.value ≤ 2 ^ (-128 : ℤ))) ∧
      before.memory.InOrder x.toView kind after.memory target.toView fun i =>
        finite i ∧ ((element i).value ≠ 0 ∨ 2 ^ (-128 : ℤ) < factor.value) := by
  have shape := (ends_staticQuantizeInto_passed target x scale before).answer returned
  have ran := ((ends_staticQuantizeInto target x scale before).answer returned).2
  obtain ⟨output, -, scaleKind, scaleFloat, usable, kind, float⟩ :=
    Kernel.runStaticQuantize_accepted ran
  obtain ⟨divides, sign, some⟩ := Kernel.isDivisor_iff.mp usable
  obtain ⟨stored, mono, zero, fits, codes⟩ := Binary32.encode_mul_reciprocal usable
  have words (i : Index) (inside : x.shape.Within i)
      (finite : (before.memory.number x.toView kind i).isFinite = true) :=
    (Kernel.runStaticQuantize_words separate shape apart ran scaleFloat (float i inside)
      inside).trans (codes _ finite)
  refine ⟨scaleKind, kind, scaleFloat, output, shape, float, divides, ?_, ?_⟩
  · rw [Binary32.value_of_isFinite divides, sign]
    exact mul_pos (Nat.cast_pos.mpr (Format.binary32.units_pos some)) Format.binary32.quantum_pos
  · have inOrder : before.memory.InOrder x.toView kind after.memory target.toView fun i =>
        (x.shape.Within i ∧ (before.memory.number x.toView kind i).isFinite = true) ∧
          ((before.memory.number x.toView kind i).value ≠ 0 ∨ 2 ^ (-128 : ℤ) <
            (Kernel.singleNumber before.memory scale.toView scaleKind).value) := by
      apply Memory.InOrder.of_codes mono zero fits
      · exact fun i member => member.1.2
      · intro i member
        rw [words i member.1.1 member.1.2, if_neg]
        rintro ⟨none, small⟩
        exact member.2.elim (· none) fun large => absurd small (not_le.mpr large)
    refine ⟨fun i finite => ⟨fun nan => ?_, fun exception => ?_⟩, inOrder⟩
    · by_contra other
      have number := inOrder.number i ⟨finite, (not_and_or.mp other).imp_right not_le.mp⟩
      rw [nan] at number
      cases number
    · rw [words i finite.1 finite.2, if_pos exception]
      decide

/-- Two numbers, zero and minus two, with a scale of one half and one of `2 ^ -149`. -/
def withTwoScales : Machine :=
  .holding #[#[0, 0], #[0, 0, 0, 0, 0, 0, 0, 0xC0], #[0, 0, 0, 0x3F], #[1, 0, 0, 0]]

def twoCodes : Tensor := .covering 0 (.float .f8) [2]

def twoNumbers : Tensor := .covering 1 (.float .f32) [2]

/-- The scale in one of the storages. -/
def scaleIn (storage : Nat) : Tensor := .covering storage (.float .f32) [1]

/-- Quantizes the two numbers with one of the scales. -/
def quantizeTwo (storage : Nat) : Action Unit :=
  staticQuantizeInto (some twoCodes) (some twoNumbers) (some (scaleIn storage))

theorem staticQuantizeInto_inOrder_half : ∃ after, quantizeTwo 2 withTwoScales = .ok () after ∧
    Format.float8.isNegative (after.memory.load twoCodes.toView [1]) = true ∧
    (after.memory.number twoCodes.toView .f8 [1]).value ≤
      (after.memory.number twoCodes.toView .f8 [0]).value := by
  have returns : (match quantizeTwo 2 withTwoScales with
    | .ok _ _ => true
    | .error _ _ => false) = true := by decide +kernel
  split at returns
  · next after returned =>
    have room : withTwoScales.memory.Dense twoCodes.toView :=
      Memory.dense_covering (by decide) (by decide) (by decide)
    obtain ⟨scaleKind, kind, scaleFloat, -, -, float, -, -, -, inOrder⟩ :=
      staticQuantizeInto_inOrder room.separate (.of_storage (by decide)) returned
    cases scaleFloat
    cases float [0] ⟨by decide, trivial⟩
    have factor : (Kernel.singleNumber withTwoScales.memory (scaleIn 2).toView .f32).value =
        1 / 2 := by
      have datum : (Kernel.singleNumber withTwoScales.memory (scaleIn 2).toView .f32).datum =
          .finite false (2 ^ 148) := by decide +kernel
      rw [Binary32.value, Binary32.number?_of_datum datum]
      norm_num [withSign, Format.binary32]
    have zero : (withTwoScales.memory.number twoNumbers.toView .f32 [0]).value = 0 := by
      rw [Binary32.value_eq_zero_iff (by decide)]
      decide
    have below : (withTwoScales.memory.number twoNumbers.toView .f32 [1]).value ≤ 0 := by
      have datum : (withTwoScales.memory.number twoNumbers.toView .f32 [1]).datum =
          .finite true (2 ^ 150) := by decide +kernel
      rw [Binary32.value, Binary32.number?_of_datum datum]
      norm_num [withSign, Format.binary32]
    refine ⟨after, returned, inOrder.sign [1] ⟨⟨⟨by decide, trivial⟩, by decide⟩, .inr ?_⟩,
      inOrder.ordered [1] [0] ⟨⟨⟨by decide, trivial⟩, by decide⟩, .inr ?_⟩
        ⟨⟨⟨by decide, trivial⟩, by decide⟩, .inr ?_⟩ (by rw [zero]; exact below)⟩
    all_goals
      rw [factor]
      norm_num
  · cases returns

/-- A zero divided by the smallest scale becomes a NaN. -/
theorem staticQuantizeInto_zero_isNaN : ∃ after, quantizeTwo 3 withTwoScales = .ok () after ∧
    (withTwoScales.memory.number twoNumbers.toView .f32 [0]).isFinite = true ∧
    FloatKind.f8.isNaN (after.memory.load twoCodes.toView [0]) = true := by
  have returns : (match quantizeTwo 3 withTwoScales with
    | .ok _ after => FloatKind.f8.isNaN (after.memory.load twoCodes.toView [0])
    | .error _ _ => false) = true := by decide +kernel
  split at returns
  · next after returned => exact ⟨after, returned, by decide, returns⟩
  · cases returns

end QuantLinear
