import QuantLinear.Proofs.Numeric.Carried
import QuantLinear.Proofs.Numeric.Narrowing

/-!
Rounding single precision words to their upper half.

A format whose exponents are those of another one, and whose fractions are the leading bits of its
fractions, takes a number of the other by rounding the code alone (`nearestCode_leading`): a carry out
of the fraction is the step into the next binade, and one out of the last binade the step to infinity.
For the upper half of a single precision word that is one addition to the word, and what comes out is
the nearest number that an upper half can hold (`FloatKind.encode_bf16_nearest`).
-/

namespace QuantLinear

section Rounding

variable (num den : Nat)

theorem divNearestEven_mul_mul {k : Nat} (some : 0 < k) :
    divNearestEven (num * k) (den * k) = divNearestEven num den := by
  have scaled : 2 * (num % den * k) = 2 * (num % den) * k := (Nat.mul_assoc ..).symm
  simp only [divNearestEven, Nat.mul_div_mul_right _ _ some, Nat.mul_mod_mul_right, scaled,
    Nat.mul_lt_mul_right some]

/-- An even number of wholes stays out of the rounding. -/
theorem divNearestEven_even_add (wholes : Nat) (some : 0 < den) :
    divNearestEven (2 * wholes * den + num) den = 2 * wholes + divNearestEven num den := by
  have quotient : (2 * wholes * den + num) / den = 2 * wholes + num / den := by
    rw [Nat.add_comm, Nat.add_mul_div_right _ _ some, Nat.add_comm]
  have remainder : (2 * wholes * den + num) % den = num % den := by
    rw [Nat.add_comm, Nat.add_mul_mod_self_right]
  simp only [divNearestEven, quotient, remainder]
  split
  · rfl
  · split <;> omega

/-- Rounding to half of a word adds just less than half, and what is missing where the upper half is
odd. -/
private theorem divNearestEven_half (word : Nat) :
    divNearestEven word (2 ^ 16) = (word + 0x7FFF + word / 2 ^ 16 % 2) / 2 ^ 16 := by
  simp only [divNearestEven]
  split
  · omega
  · split <;> omega

end Rounding

namespace Format

variable {f source : Format} {fall : Nat}

/-- The leading bits of a number with one more than `fractionBits` of them, however it is shifted. -/
private theorem log2_leading {m shift : Nat} (bits : source.fractionBits = f.fractionBits + fall)
    (lower : shift = 0 ∨ 2 ^ source.fractionBits ≤ m) (upper : m < 2 * 2 ^ source.fractionBits) :
    (m * 2 ^ shift / 2 ^ fall).log2 - f.fractionBits = shift := by
  have below : m * 2 ^ shift / 2 ^ fall < 2 ^ (f.fractionBits + shift + 1) := by
    rw [Nat.div_lt_iff_lt_mul (Nat.two_pow_pos _), ← Nat.pow_add]
    have bound := Nat.mul_lt_mul_of_pos_right upper (Nat.two_pow_pos shift)
    rwa [bits, ← Nat.pow_succ', ← Nat.pow_add,
      show (f.fractionBits + fall).succ + shift = f.fractionBits + shift + 1 + fall by omega] at bound
  rcases lower with rfl | later
  · -- there is nothing to shift where the number has no leading bit
    by_cases zero : m * 2 ^ 0 / 2 ^ fall = 0
    · rw [zero, Nat.log2_zero, Nat.zero_sub]
    · have small := (Nat.log2_lt zero).mpr below
      omega
  · have above : 2 ^ (f.fractionBits + shift) ≤ m * 2 ^ shift / 2 ^ fall := by
      rw [Nat.le_div_iff_mul_le (Nat.two_pow_pos _), ← Nat.pow_add]
      have bound := Nat.mul_le_mul_right (2 ^ shift) later
      rwa [bits, ← Nat.pow_add,
        show f.fractionBits + fall + shift = f.fractionBits + shift + fall by omega] at bound
    have some : m * 2 ^ shift / 2 ^ fall ≠ 0 :=
      Nat.ne_of_gt (Nat.lt_of_lt_of_le (Nat.two_pow_pos _) above)
    have log := (Nat.log2_eq_iff some).mpr ⟨above, below⟩
    omega

/-- Where the exponents are the same and the fractions the leading bits, rounding a number is rounding
its code. -/
theorem nearestCode_leading (fraction : 0 < f.fractionBits)
    (bits : source.fractionBits = f.fractionBits + fall) (code : Nat) :
    f.nearestCode (source.units code) (2 ^ fall) = divNearestEven code (2 ^ fall) := by
  obtain ⟨shift, m, split, lower, upper⟩ := source.exists_steps code
  have units := source.units_steps lower upper.le
  rw [← split] at units
  -- whole binades are an even number of steps of the narrower format
  obtain ⟨less, positive⟩ := Nat.exists_eq_succ_of_ne_zero fraction.ne'
  have binades : shift * 2 ^ source.fractionBits = 2 * (shift * 2 ^ less) * 2 ^ fall := by
    rw [bits, positive, Nat.pow_add, Nat.pow_succ]
    ring
  calc f.nearestCode (source.units code) (2 ^ fall)
      = shift * 2 ^ f.fractionBits + divNearestEven (m * 2 ^ shift) (2 ^ fall * 2 ^ shift) := by
        simp only [nearestCode, units, log2_leading bits lower upper, Nat.shiftLeft_eq]
    _ = 2 * (shift * 2 ^ less) + divNearestEven m (2 ^ fall) := by
        rw [divNearestEven_mul_mul _ _ (Nat.two_pow_pos _), positive, Nat.pow_succ]
        ring
    _ = divNearestEven code (2 ^ fall) := by
        rw [split, binades, divNearestEven_even_add _ _ _ (Nat.two_pow_pos _)]

/-- The code of a single precision number is carried to the upper half by rounding it. -/
private theorem carriedCode_bfloat16 {code : Nat} (fits : code ≤ binary32.topCode) :
    bfloat16.carriedCode binary32 code = divNearestEven code (2 ^ 16) := by
  rcases Nat.lt_or_eq_of_le fits with inside | top
  · have finite : code ≤ binary32.lastCode := Nat.le_pred_of_lt inside
    have nearest : bfloat16.nearestCode (binary32.units code) (2 ^ 16) = divNearestEven code (2 ^ 16) :=
      nearestCode_leading (by decide) rfl code
    have range : divNearestEven code (2 ^ 16) ≤ bfloat16.topCode := by
      rw [divNearestEven_half]
      simp only [binary32] at inside
      simp only [bfloat16]
      omega
    have falls : binary32.quantum - bfloat16.quantum = -16 := rfl
    have keeps : bfloat16.flushesTiny = false := rfl
    rw [carriedCode_of_le_lastCode binary32_proper finite, convertedCode, falls,
      if_neg (by decide), neg_neg, show (16 : Int).toNat = 16 from rfl, Nat.one_shiftLeft, roundedCode,
      keeps, Bool.false_and, if_neg Bool.false_ne_true, nearest, Nat.min_eq_right range]
  · rw [top]
    decide

end Format

namespace Binary32

variable (x : Binary32)

private theorem isNegative_quiet : x.quiet.isNegative = x.isNegative := by
  have sign : Format.binary32.signBit = 2 ^ 31 := by decide
  have quiet : (0x400000 : UInt32).toNat >>> 31 = 0 := by decide
  simp only [isNegative, Format.isNegative, sign, ← Nat.shiftRight_eq_div_pow, toNat, Binary32.quiet,
    UInt32.toNat_or, Nat.shiftRight_or_distrib, quiet, Nat.or_zero]

end Binary32

namespace FloatKind

/-- An upper half is loaded as the number that it stands for. -/
theorem number?_decode_bf16 (word : Nat) :
    (FloatKind.bf16.decode word).number? = Format.bfloat16.number? word := by
  by_cases nan : FloatKind.bf16.isNaN word = true
  · have none : Format.bfloat16.number? word = none := Format.number?_of_isNaN nan
    rw [none]
    exact Format.number?_of_isNaN (FloatKind.bf16.isNaN_decode nan)
  · have fits : Format.bfloat16.code word ≤ Format.bfloat16.topCode :=
      Nat.not_lt.mp (mt Format.isNaN_iff.mpr nan)
    have finer : Format.bfloat16.quantum = Format.binary32.quantum + (16 : Nat) := rfl
    have sign : (FloatKind.bf16.decode word).isNegative = Format.bfloat16.isNegative word :=
      FloatKind.bf16.isNegative_decode nan
    have code : (FloatKind.bf16.decode word).code =
        Format.binary32.carriedCode .bfloat16 (Format.bfloat16.code word) := by
      rw [Format.carriedCode_upper fits, decode, Binary32.code_ofNat, code_upper]
    have converted := Format.binary32.convert_eq .bfloat16
      (Format.binary32.word (Format.bfloat16.isNegative word) 0) (Bool.eq_false_iff.mpr nan)
    rw [← (FloatKind.bf16.decode word).ofNat_word, sign, code, ← converted]
    exact Binary32.number?_ofNat_convert (by decide) finer (by decide) (by decide) nan

section Encode

variable {x : Binary32}

/-- A number is rounded by one addition to its word, which never carries past the sign. -/
theorem encode_bf16_of_number (number : x.isNaN = false) :
    FloatKind.bf16.encode x =
      ((x.bits + ((0x7FFF : UInt32) + (x.bits >>> 16 &&& 1))) >>> 16).toNat := by
  have fits : x.code ≤ 0x7F800000 := Binary32.code_le_of_number number
  have odd : (x.bits >>> 16 &&& 1).toNat = x.toNat / 2 ^ 16 % 2 := by
    simp [Binary32.toNat, Nat.shiftRight_eq_div_pow]
  have word : x.toNat = (if x.isNegative then 2 ^ 31 else 0) + x.code :=
    (Format.binary32.word_isNegative_code (x.bits.toNat_lt : x.toNat < 2 * Format.binary32.signBit)).symm
  have room : x.toNat + (0x7FFF + x.toNat / 2 ^ 16 % 2) < 2 ^ 32 := by
    rw [word]
    split <;> omega
  have sum : ((x.bits + ((0x7FFF : UInt32) + (x.bits >>> 16 &&& 1))) >>> 16).toNat =
      (x.toNat + (0x7FFF + x.toNat / 2 ^ 16 % 2)) / 2 ^ 16 := by
    have bias : (0x7FFF : UInt32).toNat = 0x7FFF := rfl
    have by16 : (16 : UInt32).toNat % 32 = 16 := rfl
    rw [UInt32.toNat_shiftRight, UInt32.toNat_add, UInt32.toNat_add, odd, bias, by16,
      Nat.mod_eq_of_lt (by omega : 0x7FFF + x.toNat / 2 ^ 16 % 2 < 2 ^ 32), ← Binary32.toNat,
      Nat.mod_eq_of_lt room, Nat.shiftRight_eq_div_pow]
  have rounded : Format.bfloat16.carriedCode .binary32 x.code =
      (x.code + 0x7FFF + x.code / 2 ^ 16 % 2) / 2 ^ 16 := by
    rw [Format.carriedCode_bfloat16 fits, divNearestEven_half]
  have narrow : Format.bfloat16.signBit = 2 ^ 15 := by decide
  rw [FloatKind.bf16.encode_eq number, sum, word, format, rounded, Format.word, narrow]
  split <;> omega

/-- The upper half of a NaN is that of its word with the quiet bit set, whatever its payload is. -/
theorem encode_bf16_of_nan (nan : x.isNaN = true) :
    FloatKind.bf16.encode x = (x.bits >>> 16 ||| 0x40).toNat ∧
      Format.bfloat16.isNegative (FloatKind.bf16.encode x) = x.isNegative := by
  have stored : FloatKind.bf16.encode x = x.quiet.toNat >>> 16 := by
    have datum : x.datum = .nan := Format.datum_of_isNaN nan
    rw [encode, datum, Format.convert]
  have wide : Format.binary32.signBit = 2 ^ 31 := by decide
  have narrow : Format.bfloat16.signBit = 2 ^ 15 := by decide
  refine ⟨?_, ?_⟩
  · rw [stored]
    simp [Binary32.toNat, Binary32.quiet, Nat.shiftRight_or_distrib]
  · rw [stored, ← x.isNegative_quiet, Binary32.isNegative, Format.isNegative, Format.isNegative, wide,
      narrow, Nat.shiftRight_eq_div_pow, Nat.div_div_eq_div_mul, ← Nat.pow_add]

end Encode

/-- The upper half of a number is the nearest one, of two equally near ones the one with an even code,
with the sign of the number; from halfway past the largest one on it is infinite. A NaN stays one and
keeps its sign. -/
theorem encode_bf16_nearest (x : Binary32) :
    (∀ word, (FloatKind.bf16.decode word).number? = Format.bfloat16.number? word) ∧
    (x.isNaN = true →
      FloatKind.bf16.encode x = (x.bits >>> 16 ||| 0x40).toNat ∧
      FloatKind.bf16.isNaN (FloatKind.bf16.encode x) = true ∧
      Format.bfloat16.isNegative (FloatKind.bf16.encode x) = x.isNegative) ∧
    (x.isNaN = false →
      FloatKind.bf16.encode x =
        ((x.bits + ((0x7FFF : UInt32) + (x.bits >>> 16 &&& 1))) >>> 16).toNat ∧
      (∃ code ≤ 0x7F80, FloatKind.bf16.encode x = Format.bfloat16.word x.isNegative code) ∧
      (x.Reaches (2 ^ 128 - 2 ^ 119) →
        Format.bfloat16.datum (FloatKind.bf16.encode x) = .infinite x.isNegative) ∧
      (x.Reaches (2 ^ 128 - 2 ^ 119) ∨ ∃ v, x.number? = some v ∧ |v| < 2 ^ 128 - 2 ^ 119 ∧
        Format.bfloat16.NearestTo v (FloatKind.bf16.encode x))) := by
  -- halfway between the largest number and the one that would come next
  have ends : Format.bfloat16.magnitude Format.bfloat16.lastCode +
      Format.bfloat16.magnitude Format.bfloat16.topCode = 2 * (2 ^ 128 - 2 ^ 119) := by
    have last : Format.bfloat16.units Format.bfloat16.lastCode = 255 * 2 ^ 253 := by decide
    have top : Format.bfloat16.units Format.bfloat16.topCode = 256 * 2 ^ 253 := by decide
    rw [Format.magnitude, Format.magnitude, last, top]
    norm_num [Format.bfloat16]
  refine ⟨number?_decode_bf16, fun nan => ?_, fun number => ?_⟩
  · obtain ⟨stored, sign⟩ := encode_bf16_of_nan nan
    exact ⟨stored, FloatKind.bf16.isNaN_encode nan, sign⟩
  refine ⟨encode_bf16_of_number number, Format.bfloat16.convert_datum _ number, ?_, ?_⟩
  · intro reaches
    have top : FloatKind.bf16.encode x = Format.bfloat16.word x.isNegative Format.bfloat16.topCode := by
      rcases reaches with infinite | ⟨v, shown, large⟩
      · rw [encode, Binary32.datum_of_topCode infinite, Format.convert]
      · obtain ⟨units, datum, size, rfl⟩ := Binary32.datum_of_number? shown
        rw [size] at large
        rw [encode, datum]
        exact Format.convert_of_beyond Format.bfloat16_proper rfl _ (by linarith)
    rw [top]
    cases x.isNegative <;> decide
  · rcases Binary32.infinite_or_number number with infinite | ⟨v, shown⟩
    · exact .inl (.inl infinite)
    rcases le_or_gt (2 ^ 128 - 2 ^ 119) |v| with large | inside
    · exact .inl (.inr ⟨v, shown, large⟩)
    · refine .inr ⟨v, shown, inside, ?_⟩
      obtain ⟨units, datum, size, rfl⟩ := Binary32.datum_of_number? shown
      rw [size] at inside
      rw [encode, datum]
      exact Format.nearestTo_convert Format.bfloat16_proper _ (fun flushes => by cases flushes)
        fun _ => by linarith

/-- A number halfway between two upper halves takes the even one, the largest number becomes infinite,
and a NaN whose payload is in the lower half stays one. -/
theorem encode_bf16_nearest_halfway :
    (Binary32.mk 0x3F818000).isNaN = false ∧ (Binary32.mk 0x3F818000).number? = some (259 / 2 ^ 8) ∧
    Format.bfloat16.NearestTo (259 / 2 ^ 8) 0x3F82 ∧
    (Binary32.mk 0xFF7FFFFF).isNaN = false ∧
    (Binary32.mk 0xFF7FFFFF).Reaches (2 ^ 128 - 2 ^ 119) ∧
    Format.bfloat16.datum 0xFF80 = .infinite true ∧
    (Binary32.mk 0xFF800001).isNaN = true ∧ FloatKind.bf16.isNaN 0xFFC0 = true := by
  have halfway : (Binary32.mk 0x3F818000).number? = some (259 / 2 ^ 8) := by
    have datum : (Binary32.mk 0x3F818000).datum = .finite false (259 * 2 ^ 141) := by decide
    rw [Binary32.number?_of_datum datum]
    norm_num [withSign, Format.binary32]
  have beyond : (Binary32.mk 0xFF7FFFFF).Reaches (2 ^ 128 - 2 ^ 119) := by
    have datum : (Binary32.mk 0xFF7FFFFF).datum = .finite true (16777215 * 2 ^ 253) := by decide
    refine .inr ⟨_, Binary32.number?_of_datum datum, ?_⟩
    rw [abs_withSign _ (mul_nonneg (Nat.cast_nonneg _) Format.binary32.quantum_pos.le)]
    norm_num [Format.binary32]
  have even : FloatKind.bf16.encode ⟨0x3F818000⟩ = 0x3F82 := by decide
  have last : FloatKind.bf16.encode ⟨0xFF7FFFFF⟩ = 0xFF80 := by decide
  have quiet : FloatKind.bf16.encode ⟨0xFF800001⟩ = 0xFFC0 := by decide
  obtain ⟨-, -, finite⟩ := encode_bf16_nearest ⟨0x3F818000⟩
  obtain ⟨-, -, large⟩ := encode_bf16_nearest ⟨0xFF7FFFFF⟩
  obtain ⟨-, nan, -⟩ := encode_bf16_nearest ⟨0xFF800001⟩
  refine ⟨by decide, halfway, ?_, by decide, beyond, ?_, by decide, ?_⟩
  · rcases (finite (by decide)).2.2.2 with (infinite | ⟨v, shown, huge⟩) | ⟨v, shown, -, near⟩
    · exact absurd infinite (by decide)
    · rw [halfway, Option.some.injEq] at shown
      norm_num [← shown] at huge
    · rw [halfway, Option.some.injEq] at shown
      rwa [even, ← shown] at near
  · have infinite := (large (by decide)).2.2.1 beyond
    rwa [last] at infinite
  · have kept := (nan (by decide)).2.1
    rwa [quiet] at kept

end FloatKind

end QuantLinear
