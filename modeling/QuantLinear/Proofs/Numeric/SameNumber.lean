import QuantLinear.Element.Codec
import QuantLinear.Proofs.Numeric.Rounding

/-!
Words that stand for the same number.

A format has many NaNs, and a zero for each sign. Words that differ in no more than that are words of
the same number. Storing, loading and adding take words of the same number to words of the same
number, and so adding to zero keeps a number (`zero_add_sameNumber`).
-/

namespace QuantLinear

namespace Format

variable {f : Format} {word : Nat} {negative : Bool}

/-- Whether two words stand for the same number, with all NaNs taken as one and both zeros as one. -/
def SameNumber (f : Format) (a b : Nat) : Prop :=
  a = b ∨ (f.isNaN a = true ∧ f.isNaN b = true) ∨ (f.code a = 0 ∧ f.code b = 0)

instance (f : Format) (a b : Nat) : Decidable (f.SameNumber a b) :=
  inferInstanceAs (Decidable (_ ∨ _))

theorem isNaN_iff : f.isNaN word = true ↔ f.topCode < f.code word := by
  rw [isNaN, decide_eq_true_eq]

theorem datum_of_isNaN (nan : f.isNaN word = true) : f.datum word = .nan := by
  simp only [datum, if_pos (isNaN_iff.mp nan)]

private theorem datum_of_code_zero (some : f.topCode ≠ 0) (zero : f.code word = 0) :
    f.datum word = .finite (f.isNegative word) 0 := by
  simp [datum, zero, some.symm]

theorem isNaN_of_datum (shown : f.datum word = .nan) : f.isNaN word = true := by
  simp only [datum] at shown
  split at shown
  · next above => exact isNaN_iff.mpr above
  · split at shown <;> cases shown

theorem code_of_datum_infinite (shown : f.datum word = .infinite negative) :
    f.isNegative word = negative ∧ f.code word = f.topCode := by
  simp only [datum] at shown
  split at shown
  · cases shown
  · split at shown
    · next top =>
      cases shown
      simp only [Bool.and_eq_true, beq_iff_eq] at top
      exact ⟨rfl, top.2⟩
    · cases shown

theorem code_of_datum_finite {units : Nat} (shown : f.datum word = .finite negative units) :
    f.isNegative word = negative ∧ units = f.units (f.code word) ∧ f.code word ≤ f.topCode := by
  simp only [datum] at shown
  split at shown
  · cases shown
  · next below =>
    split at shown
    · cases shown
    · cases shown
      exact ⟨rfl, rfl, Nat.not_lt.mp below⟩

/-- Zero is stored as zero in every format. -/
private theorem code_convert_zero (source : Format) (nan : Nat) :
    f.code (f.convert source nan (.finite negative 0)) = 0 := by
  rw [convert, convertedCode_zero, code_word f negative f.signBit_pos]

end Format

namespace Binary32

variable {x y : Binary32}

/-- Whether two single precision words stand for the same number. -/
def SameNumber (x y : Binary32) : Prop := Format.binary32.SameNumber x.toNat y.toNat

theorem toNat_inj (same : x.toNat = y.toNat) : x = y := by
  cases x
  cases y
  exact congrArg Binary32.mk (UInt32.toNat_inj.mp same)

theorem code_ofNat (word : Nat) : (ofNat word).code = Format.binary32.code word := by
  rw [code, toNat, ofNat, UInt32.toNat_ofNat']
  exact Nat.mod_mod_of_dvd word (by decide)

theorem code_lt (x : Binary32) : x.code < 2 ^ 31 := Nat.mod_lt _ (by decide)

theorem isNaN_iff : x.isNaN = true ↔ 0x7F800000 < x.code := Format.isNaN_iff

/-- The word of a sign and a code. -/
theorem ofNat_word (x : Binary32) :
    ofNat (Format.binary32.word x.isNegative x.code) = x := by
  have fits : x.toNat < 2 * Format.binary32.signBit := x.bits.toNat_lt
  have same := Format.binary32.word_isNegative_code fits
  rw [isNegative, code, same, ofNat, toNat, UInt32.ofNat_toNat]

private theorem code_quiet (x : Binary32) : x.quiet.code = x.code ||| 0x400000 := by
  have new : (0x400000 : UInt32).toNat % 2 ^ 31 = 0x400000 := by decide
  have sign : Format.binary32.signBit = 2 ^ 31 := by decide
  rw [code, code, Format.code, Format.code, sign, toNat, toNat, quiet, UInt32.toNat_or,
    Nat.or_mod_two_pow, new]

/-- A code with all bits of the exponent keeps them, and its quiet bit is set. -/
private theorem le_code_quiet (above : 0x7F800000 ≤ x.code) : 0x7FC00000 ≤ x.quiet.code := by
  have below := x.code_lt
  have top : 0x7F800000 = 2 ^ 23 * 255 := by decide
  obtain ⟨payload, split⟩ := Nat.exists_eq_add_of_le above
  have small : payload < 2 ^ 23 := by omega
  have both : payload ||| 0x400000 < 2 ^ 23 := Nat.or_lt_two_pow small (by decide)
  have set : 0x400000 ≤ payload ||| 0x400000 := Nat.right_le_or
  -- the payload lies below the bits of the exponent
  rw [x.code_quiet, split, top, Nat.two_pow_add_eq_or_of_lt small, Nat.or_assoc,
    ← Nat.two_pow_add_eq_or_of_lt both]
  omega

theorem isNaN_quiet (above : 0x7F800000 ≤ x.code) : x.quiet.isNaN = true := by
  rw [isNaN_iff]
  exact Nat.lt_of_lt_of_le (by decide) (le_code_quiet above)

namespace SameNumber

theorem refl (x : Binary32) : SameNumber x x := .inl rfl

private theorem of_isNaN (first : x.isNaN = true) (second : y.isNaN = true) : SameNumber x y :=
  .inr (.inl ⟨first, second⟩)

private theorem of_zero (first : x.code = 0) (second : y.code = 0) : SameNumber x y :=
  .inr (.inr ⟨first, second⟩)

end SameNumber

private theorem code_zero (negative : Bool) : (zero negative).code = 0 := by
  cases negative <;> decide

/-- A NaN on the left comes out quiet. -/
private theorem isNaN_add (nan : x.isNaN = true) (b : Binary32) : (x + b).isNaN = true := by
  have sum : x + b = x.quiet := by
    change add x b = x.quiet
    simp only [add, datum, Format.datum_of_isNaN nan]
  rw [sum]
  exact isNaN_quiet (Nat.le_of_lt (isNaN_iff.mp nan))

/-- The sign of a zero on the left matters only to a sum that is zero. -/
private theorem zero_add_congr (first : x.code = 0) (second : y.code = 0) (b : Binary32) :
    SameNumber (x + b) (y + b) := by
  have left : x.datum = .finite x.isNegative 0 := Format.datum_of_code_zero (by decide) first
  have right : y.datum = .finite y.isNegative 0 := Format.datum_of_code_zero (by decide) second
  change SameNumber (add x b) (add y b)
  cases shown : b.datum with
  | nan => simp only [add, left, right, shown, SameNumber.refl]
  | infinite t => simp only [add, left, right, shown, SameNumber.refl]
  | finite t v =>
    -- both sums are exact sums of the same two integers, and only a sum of nothing shows a sign
    have nothing (negative : Bool) : signed negative 0 = 0 := by cases negative <;> rfl
    simp only [add, left, right, shown, nothing, Int.zero_add]
    split
    · exact .of_zero (code_zero _) (code_zero _)
    · exact .refl _

/-- Sums with words of the same number are words of the same number. -/
theorem SameNumber.add_right (same : SameNumber x y) (b : Binary32) :
    SameNumber (x + b) (y + b) := by
  rcases same with equal | ⟨first, second⟩ | ⟨first, second⟩
  · rw [toNat_inj equal]
    exact .refl _
  · exact .of_isNaN (isNaN_add first b) (isNaN_add second b)
  · exact zero_add_congr first second b

/-- A number that is neither zero nor a NaN is the sum of zero and itself. -/
private theorem nearest_units {negative : Bool} {units : Nat}
    (shown : x.datum = .finite negative units) : nearest negative units 1 = x := by
  obtain ⟨sign, count, fits⟩ := Format.code_of_datum_finite shown
  rw [nearest, count, Format.binary32.roundedCode_units fits, ← sign]
  exact x.ofNat_word

/-- Adding a number to zero keeps it, up to the sign of zero and the payload of a NaN. -/
theorem zero_add_sameNumber (x : Binary32) : SameNumber (0 + x) x := by
  have zero : (0 : Binary32).datum = .finite false 0 := by decide
  change SameNumber (add 0 x) x
  cases shown : x.datum with
  | nan =>
    have nan : x.isNaN = true := Format.isNaN_of_datum shown
    simp only [add, zero, shown]
    exact .of_isNaN (isNaN_quiet (Nat.le_of_lt (isNaN_iff.mp nan))) nan
  | infinite t =>
    obtain ⟨sign, top⟩ := Format.code_of_datum_infinite shown
    have same : infinity t = x := by
      rw [infinity, ← sign, ← top]
      exact x.ofNat_word
    simp only [add, zero, shown, same, SameNumber.refl]
  | finite t units =>
    obtain ⟨-, count, -⟩ := Format.code_of_datum_finite shown
    have total : signed false 0 + signed t units = signed t units := Int.zero_add _
    simp only [add, zero, shown, total]
    split
    · next none =>
      -- only the code zero has no units
      have empty : units = 0 := by cases t <;> simpa [signed] using none
      exact .of_zero (code_zero _) (Format.binary32.code_of_units_zero (count.symm.trans empty))
    · next some =>
      have sign : decide (signed t units < 0) = t := by
        cases t with
        | false => simp [signed]
        | true =>
          have positive : units ≠ 0 := fun empty => some (by simp [signed, empty])
          simp [signed, Nat.pos_of_ne_zero positive]
      have count : (signed t units).natAbs = units := by cases t <;> simp [signed]
      rw [sign, count, nearest_units shown]
      exact .refl _

end Binary32

namespace Binary64

theorem code_ofNat (word : Nat) :
    Format.binary64.code (ofNat word).toNat = Format.binary64.code word := by
  rw [toNat, ofNat, UInt64.toNat_ofNat']
  exact Nat.mod_mod_of_dvd word (by decide)

end Binary64

namespace FloatKind

variable (kind : FloatKind) {x y : Binary32} {a b : Nat}

/-- A NaN is stored as a NaN. -/
theorem isNaN_encode (nan : x.isNaN = true) : kind.isNaN (kind.encode x) = true := by
  have shown : x.datum = .nan := Format.datum_of_isNaN nan
  have quiet := Binary32.le_code_quiet (Nat.le_of_lt (Binary32.isNaN_iff.mp nan))
  have below := x.quiet.code_lt
  rw [isNaN, Format.isNaN_iff]
  cases kind with
  -- the two narrow kinds store one NaN for each sign, the others keep some of the payload
  | f8 =>
    rw [encode, shown, Format.convert, format, Format.code_word _ _ (by decide)]
    decide
  | f16 =>
    rw [encode, shown, Format.convert, format, Format.code_word _ _ (by decide)]
    decide
  | bf16 =>
    -- the upper half of a quiet NaN
    have upper : Format.bfloat16.code (x.quiet.toNat >>> 16) = x.quiet.code / 2 ^ 16 := by
      rw [Nat.shiftRight_eq_div_pow]
      exact (Nat.mod_mul_right_div_self ..).symm
    rw [encode, shown, Format.convert, format, upper]
    simp only [Format.bfloat16]
    omega
  | f32 => exact Format.isNaN_iff.mp nan
  | f64 =>
    -- the payload moves up, and its quiet bit keeps it from being empty
    have top : Format.binary64.topCode + ((x.quiet.code - Format.binary32.topCode) <<< 29) <
        Format.binary64.signBit := by
      rw [Nat.shiftLeft_eq]
      simp only [Format.binary64, Format.binary32, Format.signBit, Nat.one_shiftLeft]
      omega
    rw [encode, Binary32.toBinary64, format, Binary64.code_ofNat, shown, Format.convert,
      Format.code_word _ _ top, Nat.shiftLeft_eq]
    simp only [Format.binary32]
    omega

/-- Zero is stored as zero. -/
private theorem code_encode_zero (zero : x.code = 0) : kind.format.code (kind.encode x) = 0 := by
  have shown : x.datum = .finite x.isNegative 0 := Format.datum_of_code_zero (by decide) zero
  cases kind with
  | f8 | f16 | bf16 =>
    simp only [encode, shown, format]
    exact Format.code_convert_zero _ _
  | f32 => exact zero
  | f64 =>
    simp only [encode, Binary32.toBinary64, shown, format, Binary64.code_ofNat]
    exact Format.code_convert_zero _ _

/-- The upper half of a single precision word is a word of half the size. -/
theorem code_upper (word : Nat) :
    Format.binary32.code (word <<< 16) = Format.bfloat16.code word * 2 ^ 16 := by
  have wide : Format.binary32.signBit = 2 ^ 15 * 2 ^ 16 := by decide
  have narrow : Format.bfloat16.signBit = 2 ^ 15 := by decide
  rw [Nat.shiftLeft_eq, Format.code, Format.code, wide, narrow, Nat.mul_mod_mul_right]

/-- A stored NaN is loaded as a NaN. -/
theorem isNaN_decode {word : Nat} (nan : kind.isNaN word = true) :
    (kind.decode word).isNaN = true := by
  rw [isNaN] at nan
  have shown : kind.format.datum word = .nan := Format.datum_of_isNaN nan
  rw [Format.isNaN_iff] at nan
  cases kind with
  | f8 =>
    simp only [format] at shown
    rw [Binary32.isNaN_iff]
    simp only [decode, shown, Format.convert, Binary32.code_ofNat]
    rw [Format.code_word _ _ (by decide)]
    decide
  | f16 =>
    have payload : word &&& 0x3FF = word % 2 ^ 10 := Nat.and_two_pow_sub_one_eq_mod word 10
    -- a NaN of this kind has a payload that is not zero, and it is kept as it is
    have fits : 0x7F800000 + (word % 2 ^ 10) * 2 ^ 13 < Format.binary32.signBit := by
      rw [show Format.binary32.signBit = 2 ^ 31 from by decide]
      omega
    simp only [format] at shown
    simp only [format, Format.binary16, Format.code, Format.signBit, Nat.one_shiftLeft] at nan
    rw [Binary32.isNaN_iff]
    simp only [decode, shown, Format.convert, Binary32.code_ofNat, payload, Nat.shiftLeft_eq]
    rw [Format.code_word _ _ fits]
    omega
  | bf16 =>
    simp only [format, Format.bfloat16] at nan
    rw [Binary32.isNaN_iff, decode, Binary32.code_ofNat, code_upper]
    simp only [Format.bfloat16]
    omega
  | f32 =>
    rw [Binary32.isNaN_iff, decode, Binary32.code_ofNat]
    exact nan
  | f64 =>
    have wide : (Binary64.ofNat word).isNaN = true := by
      rw [Binary64.isNaN, Format.isNaN_iff, Binary64.code_ofNat]
      exact nan
    simp only [decode, Binary64.toBinary32, wide, if_true]
    apply Binary32.isNaN_quiet
    -- what is left of the payload fits below the exponent
    have below : (Binary64.ofNat word).code < 2 ^ 63 := Nat.mod_lt _ (by decide)
    have fits : Format.binary32.topCode +
        ((Binary64.ofNat word).code - Format.binary64.topCode) >>> 29 < Format.binary32.signBit := by
      rw [Nat.shiftRight_eq_div_pow, show Format.binary32.signBit = 2 ^ 31 from by decide]
      simp only [Format.binary32, Format.binary64]
      omega
    rw [Binary32.code_ofNat, Format.code_word _ _ fits]
    exact Nat.le_add_right _ _

/-- A stored zero is loaded as zero. -/
private theorem code_decode_zero {word : Nat} (zero : kind.format.code word = 0) :
    (kind.decode word).code = 0 := by
  have shown : kind.format.datum word = .finite (kind.format.isNegative word) 0 :=
    Format.datum_of_code_zero (by cases kind <;> decide) zero
  cases kind with
  | f8 | f16 =>
    simp only [format] at shown
    simp only [decode, shown, Binary32.code_ofNat]
    exact Format.code_convert_zero _ _
  | bf16 =>
    simp only [format] at zero
    simp only [decode, Binary32.code_ofNat, code_upper, zero, Nat.zero_mul]
  | f32 =>
    rw [decode, Binary32.code_ofNat]
    exact zero
  | f64 =>
    have small : Format.binary64.code (Binary64.ofNat word).toNat = 0 := by
      rw [Binary64.code_ofNat]
      exact zero
    have number : (Binary64.ofNat word).datum = .finite _ 0 :=
      Format.datum_of_code_zero (by decide) small
    have proper : (Binary64.ofNat word).isNaN = false := by
      simp [Binary64.isNaN, Format.isNaN, small]
    simp only [decode, Binary64.toBinary32, proper, number, Binary32.code_ofNat, Bool.false_eq_true,
      if_false]
    exact Format.code_convert_zero _ _

/-- Numbers that are the same are stored in words of the same number. -/
theorem encode_sameNumber (same : x.SameNumber y) :
    kind.format.SameNumber (kind.encode x) (kind.encode y) := by
  rcases same with equal | ⟨first, second⟩ | ⟨first, second⟩
  · rw [Binary32.toNat_inj equal]
    exact .inl rfl
  · exact .inr (.inl ⟨kind.isNaN_encode first, kind.isNaN_encode second⟩)
  · exact .inr (.inr ⟨kind.code_encode_zero first, kind.code_encode_zero second⟩)

/-- Words of the same number are loaded as numbers that are the same. -/
theorem decode_sameNumber (same : kind.format.SameNumber a b) :
    (kind.decode a).SameNumber (kind.decode b) := by
  rcases same with equal | ⟨first, second⟩ | ⟨first, second⟩
  · rw [equal]
    exact .refl _
  · exact .of_isNaN (kind.isNaN_decode first) (kind.isNaN_decode second)
  · exact .of_zero (kind.code_decode_zero first) (kind.code_decode_zero second)

end FloatKind

end QuantLinear
