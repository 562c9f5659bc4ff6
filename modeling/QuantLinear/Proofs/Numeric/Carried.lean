import QuantLinear.Proofs.Numeric.Scaling

/-!
Conversions as functions of codes.

Every conversion of a word that is no NaN, from a kind or to one, keeps the sign and takes the code to
another code (`Format.convert_eq`, `FloatKind.encode_eq`, `FloatKind.decode_word`). The code grows with
the one it is made of. Where the target has all the numbers of the source, the way back gives the code
that one started from (`Format.carriedCode_carriedCode`).
-/

namespace QuantLinear

namespace Format

variable {f g : Format} {code : Nat}

/-- Only infinity and what lies past it are carried to infinity whatever their units are. -/
theorem carriedCode_of_le_lastCode (proper : g.Proper) (inside : code ≤ g.lastCode) :
    f.carriedCode g code = f.convertedCode g (g.units code) := by
  rw [carriedCode, if_neg]
  intro top
  simp only [Bool.and_eq_true, beq_iff_eq] at top
  have some := (proper.top_even top.1).1
  rw [lastCode, if_pos top.1] at inside
  omega

@[simp] theorem carriedCode_zero (proper : g.Proper) : f.carriedCode g 0 = 0 := by
  rw [carriedCode_of_le_lastCode proper (Nat.zero_le _), g.units_zero, convertedCode_zero]

/-- Larger codes are carried to larger ones. -/
theorem carriedCode_mono (fraction : 0 < f.fractionBits) (source : Format) {low high : Nat}
    (ordered : low ≤ high) (fits : high ≤ source.topCode) :
    f.carriedCode source low ≤ f.carriedCode source high := by
  by_cases top : (source.topIsInfinite && high == source.topCode) = true
  -- infinity is carried to the top, and nothing is carried past it
  · rw [carriedCode.eq_def f source high, if_pos top]
    exact f.carriedCode_le ..
  · have below : ¬(source.topIsInfinite && low == source.topCode) = true := by
      simp only [Bool.and_eq_true, beq_iff_eq] at top ⊢
      exact fun both => top ⟨both.1, by omega⟩
    rw [carriedCode, carriedCode, if_neg below, if_neg top]
    exact convertedCode_mono fraction source (source.units_strictMono.monotone ordered)

/-- A magnitude that a format has is stored in its code. -/
theorem convertedCode_of_magnitude (fraction : 0 < f.fractionBits) {other : Nat}
    (fits : code ≤ f.topCode) (same : g.magnitude other = f.magnitude code) :
    f.convertedCode g (g.units other) = code := by
  obtain ⟨num, den, some, stored, value⟩ := f.convertedCode_eq g (g.units other)
  have quotient : (num : ℚ) / den = f.units code :=
    mul_right_cancel₀ f.quantum_pos.ne' (value.trans same)
  rw [stored]
  exact le_antisymm (roundedCode_le_code fraction some fits quotient.le)
    (le_roundedCode fraction some fits quotient.ge)

/-- A format carries its own codes to themselves. -/
theorem carriedCode_self (fraction : 0 < f.fractionBits) (fits : code ≤ f.topCode) :
    f.carriedCode f code = code := by
  rw [carriedCode]
  split
  · next top =>
    simp only [Bool.and_eq_true, beq_iff_eq] at top
    exact top.2.symm
  · exact convertedCode_of_magnitude fraction fits rfl

/-- A format that has all the numbers of another one, and the same infinities. -/
structure Covers (g f : Format) : Prop where
  proper : g.Proper
  infinite : g.topIsInfinite = true
  bits : f.fractionBits ≤ g.fractionBits
  fine : ∃ rise : Nat, f.quantum = g.quantum + rise ∧
    f.units f.lastCode * 2 ^ rise ≤ g.units g.lastCode

/-- From a format to one that covers it and back. -/
theorem carriedCode_carriedCode (covers : g.Covers f) (proper : f.Proper) (fits : code ≤ f.topCode) :
    f.carriedCode g (g.carriedCode f code) = code := by
  by_cases top : (f.topIsInfinite && code == f.topCode) = true
  · rw [carriedCode.eq_def g f, if_pos top, carriedCode, covers.infinite, BEq.rfl, Bool.and_self,
      if_pos rfl]
    simp only [Bool.and_eq_true, beq_iff_eq] at top
    exact top.2.symm
  -- a finite magnitude is one of the wider format, and there it is stored without rounding
  · have inside : code ≤ f.lastCode := by
      rw [lastCode]
      split
      · next infinite =>
        have other : code ≠ f.topCode := by simpa [infinite] using top
        omega
      · exact fits
    obtain ⟨rise, finer, room⟩ := covers.fine
    have below := (Nat.mul_le_mul_right (2 ^ rise) (f.units_strictMono.monotone inside)).trans room
    obtain ⟨reached, same⟩ := convertedCode_exact covers.bits finer below
    rw [carriedCode_of_le_lastCode proper inside, carriedCode_of_le_lastCode covers.proper reached]
    exact convertedCode_of_magnitude proper.fraction fits same

theorem binary32_covers_float8 : binary32.Covers float8 :=
  ⟨binary32_proper, rfl, by decide, 140, rfl, by decide⟩

theorem binary32_covers_binary16 : binary32.Covers binary16 :=
  ⟨binary32_proper, rfl, by decide, 125, rfl, by decide⟩

theorem binary32_covers_bfloat16 : binary32.Covers bfloat16 :=
  ⟨binary32_proper, rfl, by decide, 16, rfl, by decide⟩

theorem binary64_covers_binary32 : binary64.Covers binary32 :=
  ⟨binary64_proper, rfl, by decide, 925, rfl, by decide +kernel⟩

/-- The upper half of a single precision word counts the same units in larger steps. -/
private theorem units_upper (code : Nat) :
    binary32.units (code * 2 ^ 16) = bfloat16.units code * 2 ^ 16 := by
  have wide : binary32.fractionBits = 23 := rfl
  have narrow : bfloat16.fractionBits = 7 := rfl
  rcases Nat.lt_or_ge code (2 ^ 7) with first | later
  · rw [bfloat16.units_of_lt (by rwa [narrow]), binary32.units_of_lt (by rw [wide]; omega)]
  · have rest : code * 2 ^ 16 % 2 ^ 23 = code % 2 ^ 7 * 2 ^ 16 := by omega
    have binade : code * 2 ^ 16 / 2 ^ 23 = code / 2 ^ 7 := by omega
    rw [bfloat16.units_of_le (by rwa [narrow]), binary32.units_of_le (by rw [wide]; omega), wide,
      narrow, rest, binade]
    ring

/-- The upper half of a single precision code is carried to that code. -/
theorem carriedCode_upper (fits : code ≤ bfloat16.topCode) :
    binary32.carriedCode bfloat16 code = code * 2 ^ 16 := by
  have top : bfloat16.topCode = 0x7F80 := rfl
  rw [carriedCode]
  split
  · next infinite =>
    simp only [Bool.and_eq_true, beq_iff_eq] at infinite
    rw [infinite.2]
    rfl
  · apply convertedCode_of_magnitude (by decide)
    · rw [show binary32.topCode = 0x7F800000 from rfl]
      omega
    · rw [magnitude, magnitude, units_upper]
      norm_num [bfloat16, binary32]
      ring

end Format

namespace Binary32

variable {x : Binary32}

theorem code_le_of_number (number : x.isNaN = false) : x.code ≤ Format.binary32.topCode := by
  rw [← Nat.not_lt]
  intro above
  exact absurd (isNaN_iff.mpr above) (by simp [number])

theorem isNaN_ofNat_word {negative : Bool} {code : Nat} (fits : code ≤ Format.binary32.topCode) :
    (ofNat (Format.binary32.word negative code)).isNaN = false := by
  rw [← Bool.not_eq_true, isNaN_iff, code_ofNat_word fits]
  exact Nat.not_lt.mpr fits

end Binary32

namespace Binary64

variable {x : Binary64}

theorem ofNat_toNat (x : Binary64) : ofNat x.toNat = x := by
  rw [ofNat, toNat, UInt64.ofNat_toNat]

theorem toNat_ofNat {word : Nat} (fits : word < 2 ^ 64) : (ofNat word).toNat = word := by
  rw [toNat, ofNat, UInt64.toNat_ofNat']
  exact Nat.mod_eq_of_lt fits

theorem code_le_of_number (number : x.isNaN = false) : x.code ≤ Format.binary64.topCode := by
  rw [← Nat.not_lt]
  intro above
  exact absurd (Format.isNaN_iff.mpr above) (by simpa [isNaN] using number)

/-- A double precision number is narrowed by its code. -/
theorem toBinary32_eq (number : x.isNaN = false) : x.toBinary32 =
    .ofNat (Format.binary32.word x.isNegative (Format.binary32.carriedCode .binary64 x.code)) := by
  simp only [toBinary32, number, Bool.false_eq_true, if_false, datum]
  rw [Format.convert_eq _ _ _ number]
  rfl

theorem isNaN_toBinary32 (x : Binary64) : x.toBinary32.isNaN = x.isNaN := by
  cases nan : x.isNaN with
  | true =>
    have loaded := FloatKind.f64.isNaN_decode nan
    rwa [FloatKind.decode, ofNat_toNat] at loaded
  | false =>
    rw [toBinary32_eq nan]
    exact Binary32.isNaN_ofNat_word (Format.carriedCode_le ..)

end Binary64

private theorem Binary32.toBinary64_eq {x : Binary32} (number : x.isNaN = false) : x.toBinary64 =
    .ofNat (Format.binary64.word x.isNegative (Format.binary64.carriedCode .binary32 x.code)) := by
  simp only [toBinary64, datum]
  rw [Format.convert_eq _ _ _ number]
  rfl

/-- A double precision word with a code that is no NaN is taken as it is. -/
theorem Binary64.toNat_ofNat_word {negative : Bool} {code : Nat}
    (fits : code ≤ Format.binary64.topCode) :
    (ofNat (Format.binary64.word negative code)).toNat = Format.binary64.word negative code :=
  toNat_ofNat (Format.binary64.word_lt negative (Nat.lt_of_le_of_lt fits (by decide)))

namespace Binary32

section Widened

variable {x : Binary32} (number : x.isNaN = false)
include number

theorem isNegative_toBinary64 : x.toBinary64.isNegative = x.isNegative := by
  have fits := Format.binary64.carriedCode_le .binary32 x.code
  rw [toBinary64_eq number, Binary64.isNegative, Binary64.toNat_ofNat_word fits,
    Format.isNegative_word _ _ (Nat.lt_of_le_of_lt fits Format.binary64_proper.top_lt)]

theorem code_toBinary64 : x.toBinary64.code = Format.binary64.carriedCode .binary32 x.code := by
  have fits := Format.binary64.carriedCode_le .binary32 x.code
  rw [toBinary64_eq number, Binary64.code, Binary64.toNat_ofNat_word fits,
    Format.code_word _ _ (Nat.lt_of_le_of_lt fits Format.binary64_proper.top_lt)]

theorem isNaN_toBinary64 : x.toBinary64.isNaN = false := by
  have fits := Format.binary64.carriedCode_le .binary32 x.code
  rw [← Bool.not_eq_true, Binary64.isNaN, Format.isNaN_iff]
  exact Nat.not_lt.mpr (le_of_eq_of_le (code_toBinary64 number) fits)

end Widened

end Binary32

namespace FloatKind

theorem format_proper (kind : FloatKind) : kind.format.Proper := by
  cases kind
  · exact Format.float8_proper
  · exact Format.binary16_proper
  · exact Format.bfloat16_proper
  · exact Format.binary32_proper
  · exact Format.binary64_proper

/-- A number is stored by its code. -/
theorem encode_eq (kind : FloatKind) {x : Binary32} (number : x.isNaN = false) : kind.encode x =
    kind.format.word x.isNegative (kind.format.carriedCode .binary32 x.code) := by
  cases kind with
  | f8 | f16 | bf16 => exact Format.convert_eq _ _ _ number
  | f32 =>
    have fits : x.toNat < 2 * Format.binary32.signBit := x.bits.toNat_lt
    simp only [encode, format]
    rw [Format.carriedCode_self (by decide) (Binary32.code_le_of_number number)]
    exact (Format.binary32.word_isNegative_code fits).symm
  | f64 =>
    rw [encode, Binary32.toBinary64_eq number,
      Binary64.toNat_ofNat_word (Format.carriedCode_le ..)]
    rfl

/-- A word that is no NaN is loaded by its code. -/
theorem decode_word (kind : FloatKind) (negative : Bool) {code : Nat}
    (fits : code ≤ kind.format.topCode) : kind.decode (kind.format.word negative code) =
      .ofNat (Format.binary32.word negative (Format.binary32.carriedCode kind.format code)) := by
  have small := Nat.lt_of_le_of_lt fits kind.format_proper.top_lt
  have same := Format.code_word kind.format negative small
  have sign := Format.isNegative_word kind.format negative small
  have number : kind.format.isNaN (kind.format.word negative code) = false := by
    rw [← Bool.not_eq_true, Format.isNaN_iff, same]
    exact Nat.not_lt.mpr fits
  cases kind with
  | f8 | f16 =>
    simp only [format] at same sign number ⊢
    simp only [decode]
    rw [Format.convert_eq _ _ _ number, same, sign]
  | bf16 =>
    simp only [format] at fits ⊢
    have upper : Format.bfloat16.word negative code <<< 16 =
        Format.binary32.word negative (code * 2 ^ 16) := by
      rw [Nat.shiftLeft_eq]
      cases negative
      · simp [Format.word]
      · simp only [Format.word, if_true, Nat.add_mul]
        rfl
    rw [decode, upper, Format.carriedCode_upper fits]
  | f32 =>
    simp only [format] at fits ⊢
    rw [decode, Format.carriedCode_self (by decide) fits]
  | f64 =>
    simp only [format] at fits same sign number ⊢
    have word : (Binary64.ofNat (Format.binary64.word negative code)).toNat =
        Format.binary64.word negative code := Binary64.toNat_ofNat_word fits
    rw [decode, Binary64.toBinary32_eq (by rw [Binary64.isNaN, word, number]), Binary64.isNegative,
      Binary64.code, word, same, sign]

end FloatKind

end QuantLinear
