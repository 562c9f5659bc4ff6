import QuantLinear.Proofs.Numeric.Narrowing
import QuantLinear.Proofs.Numeric.Order

/-!
Scaling single precision numbers by a positive one, and storing them in eight bits.

A product with a positive number, or a quotient by one, keeps the sign of a finite number and takes its
code to another code, by a function of the code alone that grows with it. Storing the outcome in eight
bits does the same. An infinite factor is the one exception: it has no product with zero.
-/

namespace QuantLinear

namespace Format

variable {f source : Format}

/-- A number that is stored in another format keeps its sign. -/
private theorem isNegative_convert (top : f.topCode < f.signBit) (nan : Nat) {word : Nat}
    (number : ¬source.isNaN word = true) :
    f.isNegative (f.convert source nan (source.datum word)) = source.isNegative word := by
  rw [convert_eq f source nan (Bool.eq_false_iff.mpr number),
    f.isNegative_word _ (Nat.lt_of_le_of_lt (f.carriedCode_le ..) top)]

end Format

namespace Binary32

variable {x y : Binary32}

/-- The number that a word stands for; those that stand for none count as zero. -/
def value (x : Binary32) : ℚ := x.number?.getD 0

theorem isFinite_iff : x.isFinite = true ↔ x.code < Format.binary32.topCode := by
  rw [isFinite, decide_eq_true_eq]

theorem isNaN_of_isFinite (finite : x.isFinite = true) : x.isNaN = false := by
  rw [← Bool.not_eq_true, isNaN_iff]
  exact Nat.lt_asymm (isFinite_iff.mp finite)

/-- A finite number as its sign and the units of its code. -/
theorem datum_of_isFinite (finite : x.isFinite = true) :
    x.datum = .finite x.isNegative (Format.binary32.units x.code) := by
  rcases infinite_or_number (isNaN_of_isFinite finite) with top | ⟨v, shown⟩
  · exact absurd top (Nat.ne_of_lt (isFinite_iff.mp finite))
  · obtain ⟨units, datum, -⟩ := datum_of_number? shown
    rw [datum, (Format.code_of_datum_finite datum).2.1]
    rfl

theorem value_of_isFinite (finite : x.isFinite = true) :
    x.value = withSign x.isNegative (Format.binary32.magnitude x.code) := by
  rw [value, number?_of_datum (datum_of_isFinite finite), Option.getD_some, Format.magnitude]

/-- Only a zero has the value zero. -/
theorem value_eq_zero_iff (finite : x.isFinite = true) : x.value = 0 ↔ x.code = 0 := by
  have zero : Format.binary32.magnitude x.code = 0 ↔ x.code = 0 := by
    rw [Format.magnitude, mul_eq_zero_iff_right Format.binary32.quantum_pos.ne', Nat.cast_eq_zero]
    exact ⟨Format.binary32.code_of_units_zero, fun none => by rw [none, Format.units_zero]⟩
  rw [value_of_isFinite finite, ← zero]
  cases x.isNegative <;> simp [withSign]

theorem isNegative_ofNat (word : Nat) :
    (ofNat word).isNegative = Format.binary32.isNegative word := by
  have bit : word % 2 ^ 32 / 2 ^ 31 % 2 = word / 2 ^ 31 % 2 := by omega
  have sign : Format.binary32.signBit = 2 ^ 31 := by decide
  rw [isNegative, Format.isNegative, Format.isNegative, sign, toNat, ofNat, UInt32.toNat_ofNat', bit]

section Words

variable {negative : Bool} {code : Nat}

theorem code_ofNat_word (fits : code ≤ Format.binary32.topCode) :
    (ofNat (Format.binary32.word negative code)).code = code := by
  rw [code_ofNat, Format.code_word _ _ (Nat.lt_of_le_of_lt fits (by decide))]

theorem isNegative_ofNat_word (fits : code ≤ Format.binary32.topCode) :
    (ofNat (Format.binary32.word negative code)).isNegative = negative := by
  rw [isNegative_ofNat, Format.isNegative_word _ _ (Nat.lt_of_le_of_lt fits (by decide))]

end Words

/-- The code of the product with a positive number of `units` units. -/
def productCode (units code : Nat) : Nat :=
  Format.binary32.roundedCode (Format.binary32.units code * units) unitsInOne

/-- The code of the quotient by a positive number of `units` units. -/
def quotientCode (units code : Nat) : Nat :=
  Format.binary32.roundedCode (Format.binary32.units code * unitsInOne) units

theorem unitsInOne_pos : 0 < unitsInOne := by decide

theorem productCode_mono (units : Nat) : Monotone (productCode units) := fun a b ordered => by
  have grown := Nat.mul_le_mul_right units (Format.binary32.units_strictMono.monotone ordered)
  exact Format.roundedCode_mono (by decide) unitsInOne_pos unitsInOne_pos
    (div_le_div_of_nonneg_right (Nat.cast_le.mpr grown) (Nat.cast_nonneg _))

theorem quotientCode_mono {units : Nat} (some : 0 < units) : Monotone (quotientCode units) :=
  fun a b ordered => by
    have grown := Nat.mul_le_mul_right unitsInOne (Format.binary32.units_strictMono.monotone ordered)
    exact Format.roundedCode_mono (by decide) some some
      (div_le_div_of_nonneg_right (Nat.cast_le.mpr grown) (Nat.cast_nonneg _))

theorem productCode_le (units code : Nat) : productCode units code ≤ Format.binary32.topCode :=
  Format.binary32.roundedCode_le ..

theorem quotientCode_le (units code : Nat) : quotientCode units code ≤ Format.binary32.topCode :=
  Format.binary32.roundedCode_le ..

@[simp] theorem productCode_zero (units : Nat) : productCode units 0 = 0 := by simp [productCode]

@[simp] theorem quotientCode_zero (units : Nat) : quotientCode units 0 = 0 := by simp [quotientCode]

section Finite

variable (finite : x.isFinite = true)
include finite

theorem mul_eq {units : Nat} (factor : y.datum = .finite false units) :
    x * y = ofNat (Format.binary32.word x.isNegative (productCode units x.code)) := by
  change mul x y = _
  simp only [mul, datum_of_isFinite finite, factor, Bool.xor_false, nearest, productCode]

/-- An infinite factor leaves only the sign of a number, and nothing of a zero. -/
theorem mul_infinite (factor : y.datum = .infinite false) :
    x * y = if x.code = 0 then invalid else infinity x.isNegative := by
  have none : Format.binary32.units x.code = 0 ↔ x.code = 0 :=
    ⟨Format.binary32.code_of_units_zero, fun zero => by rw [zero, Format.units_zero]⟩
  change mul x y = _
  simp only [mul, datum_of_isFinite finite, factor, Bool.xor_false, none]

theorem div_eq {units : Nat} (some : 0 < units) (divisor : y.datum = .finite false units) :
    x / y = ofNat (Format.binary32.word x.isNegative (quotientCode units x.code)) := by
  change div x y = _
  simp only [div, datum_of_isFinite finite, divisor, Bool.xor_false, Nat.ne_of_gt some, if_false,
    nearest, quotientCode]

theorem div_infinite (divisor : y.datum = .infinite false) : x / y = zero x.isNegative := by
  change div x y = _
  simp only [div, datum_of_isFinite finite, divisor, Bool.xor_false]

end Finite

theorem infinite_div {negative : Bool} {units : Nat} (unbounded : x.datum = .infinite negative)
    (divisor : y.datum = .finite false units) : x / y = infinity negative := by
  change div x y = _
  simp only [div, unbounded, divisor, Bool.xor_false]

/-- Neither a NaN nor an infinite number has a quotient by an infinite one. -/
theorem isNaN_div_infinite (unbounded : x.isFinite = false) (divisor : y.datum = .infinite false) :
    (x / y).isNaN = true := by
  change (div x y).isNaN = true
  cases found : x.datum with
  | nan =>
    have nan : x.isNaN = true := Format.isNaN_of_datum found
    simp only [div, found]
    exact isNaN_quiet (Nat.le_of_lt (isNaN_iff.mp nan))
  | infinite negative =>
    simp only [div, found, divisor]
    decide
  | finite negative units =>
    obtain ⟨-, -, below⟩ := Format.code_of_datum_finite found
    have top : x.code ≠ Format.binary32.topCode := fun same => by
      rw [datum_of_topCode same] at found
      cases found
    have inside : x.isFinite = true := isFinite_iff.mpr (Nat.lt_of_le_of_ne below top)
    exact absurd inside (by simp [unbounded])

/-- A NaN stays one when it is divided. -/
theorem isNaN_div (nan : x.isNaN = true) (y : Binary32) : (x / y).isNaN = true := by
  have quotient : x / y = x.quiet := by
    change div x y = x.quiet
    simp only [div, datum, Format.datum_of_isNaN nan]
  rw [quotient]
  exact isNaN_quiet (Nat.le_of_lt (isNaN_iff.mp nan))

end Binary32

namespace FloatKind

/-- Eight bits keep the sign of a number and store its magnitude in the nearest code. -/
theorem encode_f8_word (negative : Bool) {code : Nat} (fits : code ≤ Format.binary32.topCode) :
    FloatKind.f8.encode (.ofNat (Format.binary32.word negative code)) =
      Format.float8.word negative (Format.float8.narrowedCode code) := by
  have sign : (Binary32.ofNat (Format.binary32.word negative code)).isNegative = negative :=
    Binary32.isNegative_ofNat_word fits
  have same : (Binary32.ofNat (Format.binary32.word negative code)).code = code :=
    Binary32.code_ofNat_word fits
  rcases Nat.lt_or_eq_of_le fits with inside | top
  · have finite := Binary32.isFinite_iff.mpr (same.trans_lt inside)
    rw [encode, Binary32.datum_of_isFinite finite, sign, same, Format.convert, Format.narrowedCode]
  · -- the code that infinity takes is the one of its units, which are past the last magnitude
    have last : Format.float8.narrowedCode Format.binary32.topCode = Format.float8.topCode := by
      decide
    rw [encode, Binary32.datum_of_topCode (same.trans top), sign, top, last, Format.convert]

/-- A word that holds a number is read with the sign that it has. -/
theorem isNegative_decode (kind : FloatKind) {word : Nat} (number : ¬kind.isNaN word = true) :
    (kind.decode word).isNegative = kind.format.isNegative word := by
  cases kind with
  | f8 | f16 =>
    simp only [decode, Binary32.isNegative_ofNat]
    exact Format.isNegative_convert (by decide) _ number
  | bf16 =>
    have wide : Format.binary32.signBit = 2 ^ 31 := by decide
    have narrow : Format.bfloat16.signBit = 2 ^ 15 := by decide
    have shifted : word * 2 ^ 16 / 2 ^ 31 = word / 2 ^ 15 := by omega
    simp only [decode, Binary32.isNegative_ofNat, format, Format.isNegative, wide, narrow,
      Nat.shiftLeft_eq, shifted]
  | f32 => simp only [decode, Binary32.isNegative_ofNat, format]
  | f64 =>
    have small : Format.binary64.code (Binary64.ofNat word).toNat = Format.binary64.code word :=
      Binary64.code_ofNat word
    have proper : ¬(Binary64.ofNat word).isNaN = true := by
      rw [Binary64.isNaN, Format.isNaN, small]
      exact number
    have sign : (Binary64.ofNat word).isNegative = Format.binary64.isNegative word := by
      have wide : Format.binary64.signBit = 2 ^ 63 := by decide
      have bit : word % 2 ^ 64 / 2 ^ 63 % 2 = word / 2 ^ 63 % 2 := by omega
      rw [Binary64.isNegative, Format.isNegative, Format.isNegative, wide, Binary64.toNat,
        Binary64.ofNat, UInt64.toNat_ofNat', bit]
    simp only [decode, Binary64.toBinary32, proper, Bool.false_eq_true, if_false,
      Binary32.isNegative_ofNat]
    exact (Format.isNegative_convert (by decide) _ proper).trans sign

end FloatKind

end QuantLinear
