import Mathlib.Data.Nat.Bitwise
import Mathlib.Data.Nat.Log
import QuantLinear.Proofs.Numeric.UpperHalf

/-!
Storing and loading the narrow kinds by the fields of a word.

The kinds of eight bits and of half precision are defined by the rounding that all formats share. On
machine words both are computed by cases on the exponent instead: a fraction loses its last bits
where the exponent is one of the narrow kind, and shifts further where that has only its smallest
steps left. The two ways to store a number agree (`FloatKind.encode_f8_eq`,
`FloatKind.encode_f16_eq`), and so do the two ways to load one (`FloatKind.decode_f8_fields`,
`FloatKind.decode_f16_eq`).
-/

namespace QuantLinear

/-- Whether what is kept of a number goes up: what is dropped is more than half of the last place,
or just half of it where the last place is odd. -/
def roundsUp (kept rest half : Nat) : Bool := half < rest || rest == half && kept &&& 1 == 1

/-- Rounding to a power of two drops bits and looks at them. -/
private theorem divNearestEven_two_pow (n : Nat) {k : Nat} (some : 0 < k) :
    divNearestEven n (2 ^ k) =
      n >>> k + (roundsUp (n >>> k) (n &&& 2 ^ k - 1) (2 ^ (k - 1))).toNat := by
  obtain ⟨less, rfl⟩ := Nat.exists_eq_succ_of_ne_zero some.ne'
  have wider : 2 ^ less.succ = 2 * 2 ^ less := Nat.pow_succ'
  simp only [divNearestEven, roundsUp, Nat.shiftRight_eq_div_pow, Nat.and_two_pow_sub_one_eq_mod,
    Nat.and_one_is_mod, Nat.succ_sub_one]
  rw [wider]
  generalize n / (2 * 2 ^ less) = quotient
  generalize n % (2 * 2 ^ less) = remainder
  rcases Nat.lt_trichotomy remainder (2 ^ less) with below | rfl | above
  · simp [below, below.le, below.ne]
  · rcases Nat.mod_two_eq_zero_or_one quotient with even | odd
    · simp [even]
    · simp [odd]
  · simp [above, above.not_gt]

namespace Format

/-- A sign bit above a code. -/
private theorem word_eq_or (f : Format) (negative : Bool) {code : Nat} (fits : code < f.signBit) :
    f.word negative code = (if negative then f.signBit else 0) ||| code := by
  rw [word]
  cases negative
  · simp
  · have bit : f.signBit = 2 ^ (f.width - 1) := Nat.one_shiftLeft _
    rw [bit] at fits ⊢
    simpa using Nat.two_pow_add_eq_or_of_lt fits 1

/-- The sign bit alone. -/
private theorem and_signBit (f : Format) (word : Nat) :
    word &&& f.signBit = if f.isNegative word then f.signBit else 0 := by
  have place : f.signBit = 2 ^ (f.width - 1) := Nat.one_shiftLeft _
  have sign : f.isNegative word = word.testBit (f.width - 1) := by
    rw [isNegative, place, Nat.testBit_eq_decide_div_mod_eq]
    rfl
  rw [sign, place, Nat.and_two_pow]
  cases word.testBit (f.width - 1) <;> simp

/-- Rounding to a power of two, in the steps of the binade of the number. -/
private theorem nearestCode_two_pow (f : Format) (num k : Nat) :
    f.nearestCode num (2 ^ k) = (num.log2 - k - f.fractionBits) * 2 ^ f.fractionBits +
      divNearestEven num (2 ^ (k + (num.log2 - k - f.fractionBits))) := by
  have log : (num / 2 ^ k).log2 = num.log2 - k := by
    rw [Nat.log2_eq_log_two, Nat.log2_eq_log_two, Nat.log_div_base_pow]
  simp only [nearestCode, log, Nat.shiftLeft_eq, Nat.pow_add]

end Format

namespace Binary32

/-- The exponent of a word without its bias. -/
def exponent (x : Binary32) : Int := (x.toNat >>> 23 &&& 0xFF : Nat) - 127

/-- The fraction bits of a word. -/
def fraction (x : Binary32) : Nat := x.toNat &&& 0x7FFFFF

/-- The half precision word of a number, by its exponent: the fraction loses its last bits, and below
the later binades more of them, with its leading bit written out. -/
def toHalf (x : Binary32) : Nat :=
  let sign := x.toNat >>> 16 &&& 0x8000
  if x.exponent = 128 then sign ||| 0x7C00 ||| if x.fraction = 0 then 0 else 0x200
  else if 15 < x.exponent then sign ||| 0x7C00
  else if -14 ≤ x.exponent then
    let kept := x.fraction >>> 13
    let code := (x.exponent + 15).toNat <<< 10 ||| kept
    sign ||| (code + (roundsUp kept (x.fraction &&& 0x1FFF) 0x1000).toNat)
  else if -24 ≤ x.exponent then
    let leading := x.fraction ||| 0x800000
    let shift := (-x.exponent - 1).toNat
    let kept := leading >>> shift
    sign ||| (kept + (roundsUp kept (leading &&& 1 <<< shift - 1) (1 <<< (shift - 1))).toNat)
  else sign

section Fields

variable (x : Binary32)

private theorem exponent_eq : x.exponent = (x.code / 2 ^ 23 : Nat) - 127 := by
  have field : x.toNat >>> 23 &&& 0xFF = x.toNat / 2 ^ 23 % 2 ^ 8 := by
    rw [Nat.shiftRight_eq_div_pow]
    exact Nat.and_two_pow_sub_one_eq_mod _ 8
  have code : x.code = x.toNat % 2 ^ 31 := rfl
  rw [exponent, field, code]
  omega

private theorem fraction_eq : x.fraction = x.code % 2 ^ 23 := by
  have field : x.fraction = x.toNat % 2 ^ 23 := Nat.and_two_pow_sub_one_eq_mod _ 23
  have code : x.code = x.toNat % 2 ^ 31 := rfl
  rw [field, code]
  omega

private theorem fraction_lt : x.fraction < 2 ^ 23 := by
  rw [fraction_eq]
  exact Nat.mod_lt _ (by decide)

/-- The sign bit of a word, moved to the place that it has in half precision. -/
private theorem sign_upper : x.toNat >>> 16 &&& 0x8000 = if x.isNegative then 0x8000 else 0 := by
  have alone : x.toNat &&& 2 ^ 31 = if x.isNegative then 2 ^ 31 else 0 :=
    Format.binary32.and_signBit x.toNat
  have moved : x.toNat >>> 16 &&& 0x8000 = (x.toNat &&& 2 ^ 31) >>> 16 := by
    rw [Nat.shiftRight_and_distrib]
    rfl
  rw [moved, alone]
  cases x.isNegative <;> rfl

end Fields

end Binary32

namespace Format

section Half

variable {code : Nat}

/-- Half precision counts in `2 ^ 125` units of single precision. -/
private theorem carriedCode_binary16 (inside : code ≤ binary32.lastCode) :
    binary16.carriedCode binary32 code =
      if binary32.units code < 2 ^ 125 then 0
      else min 0x7C00 (binary16.nearestCode (binary32.units code) (2 ^ 125)) := by
  have falls : binary32.quantum - binary16.quantum = -125 := rfl
  have flushes : binary16.flushesTiny = true := rfl
  have top : binary16.topCode = 0x7C00 := rfl
  rw [carriedCode_of_le_lastCode binary32_proper inside, convertedCode, falls,
    if_neg (by decide), neg_neg, show (125 : Int).toNat = 125 from rfl, Nat.one_shiftLeft,
    roundedCode, flushes, Bool.true_and, top]
  simp only [decide_eq_true_eq]

/-- A number is below the smallest one of half precision where its exponent is. -/
private theorem units_lt_iff : binary32.units code < 2 ^ 125 ↔ code / 2 ^ 23 < 103 := by
  have bits : binary32.fractionBits = 23 := rfl
  rcases Nat.lt_or_ge code (2 ^ 23) with first | later
  · rw [binary32.units_of_lt first]
    omega
  · have some := binary32.units_pos (Nat.lt_of_lt_of_le (by decide) later)
    rw [← Nat.log2_lt some.ne', binary32.log2_units later, bits]
    omega

/-- The fraction of a number with its leading bit loses thirteen bits, and one more for each step
that the exponent lies below the smallest one of half precision. -/
private theorem nearestCode_binary16 (later : 2 ^ 23 ≤ code) :
    binary16.nearestCode (binary32.units code) (2 ^ 125) = (code / 2 ^ 23 - 113) * 2 ^ 10 +
      divNearestEven (2 ^ 23 + code % 2 ^ 23) (2 ^ (13 + (113 - code / 2 ^ 23))) := by
  have bits : binary32.fractionBits = 23 := rfl
  have narrow : binary16.fractionBits = 10 := rfl
  have binade : 1 ≤ code / 2 ^ 23 := (Nat.one_le_div_iff (by decide)).mpr later
  have shift : (binary32.units code).log2 - 125 - 10 = code / 2 ^ 23 - 113 := by
    rw [binary32.log2_units later, bits]
    omega
  have step : 125 + (code / 2 ^ 23 - 113) =
      13 + (113 - code / 2 ^ 23) + (code / 2 ^ 23 - 1) := by omega
  rw [nearestCode_two_pow, narrow, shift, binary32.units_of_le later, bits, step,
    Nat.pow_add 2 (13 + _), divNearestEven_mul_mul _ _ (Nat.two_pow_pos _)]

/-- Half precision by the exponent of a number: infinity past its last binade, a shorter fraction in
its binades, what is left of the fraction and its leading bit below them, and zero from below its
smallest number on. -/
private theorem carriedCode_binary16_eq (inside : code ≤ binary32.lastCode) :
    binary16.carriedCode binary32 code =
      if 142 < code / 2 ^ 23 then 0x7C00
      else if 113 ≤ code / 2 ^ 23 then
        (code / 2 ^ 23 - 112) * 2 ^ 10 + divNearestEven (code % 2 ^ 23) (2 ^ 13)
      else if 103 ≤ code / 2 ^ 23 then
        divNearestEven (2 ^ 23 + code % 2 ^ 23) (2 ^ (126 - code / 2 ^ 23))
      else 0 := by
  rw [carriedCode_binary16 inside]
  simp only [units_lt_iff]
  rcases Nat.lt_or_ge (code / 2 ^ 23) 103 with tiny | large
  · rw [if_pos tiny, if_neg (by omega), if_neg (by omega), if_neg (by omega)]
  have fraction : code % 2 ^ 23 < 2 ^ 23 := Nat.mod_lt _ (by decide)
  rw [if_neg (by omega), nearestCode_binary16 (by omega)]
  rcases Nat.lt_or_ge (code / 2 ^ 23) 113 with subnormal | normal
  · have place : 13 + (113 - code / 2 ^ 23) = 126 - code / 2 ^ 23 := by omega
    have wide : 2 ^ 14 ≤ 2 ^ (126 - code / 2 ^ 23) := Nat.pow_le_pow_right (by decide) (by omega)
    have kept : (2 ^ 23 + code % 2 ^ 23) / 2 ^ (126 - code / 2 ^ 23) ≤
        (2 ^ 23 + code % 2 ^ 23) / 2 ^ 14 := Nat.div_le_div_left wide (Nat.two_pow_pos 14)
    have bounds := divNearestEven_bounds (2 ^ 23 + code % 2 ^ 23) (2 ^ (126 - code / 2 ^ 23))
    rw [place, if_neg (by omega), if_neg (by omega), if_pos large,
      Nat.sub_eq_zero_of_le subnormal.le, Nat.zero_mul, Nat.zero_add]
    exact Nat.min_eq_right (by omega)
  · have leading := divNearestEven_even_add (code % 2 ^ 23) (2 ^ 13) (2 ^ 9) (Nat.two_pow_pos 13)
    rw [show 2 * 2 ^ 9 * 2 ^ 13 = 2 ^ 23 from rfl, show 2 * 2 ^ 9 = 2 ^ 10 from rfl] at leading
    have bounds := divNearestEven_bounds (code % 2 ^ 23) (2 ^ 13)
    rw [Nat.sub_eq_zero_of_le normal, Nat.add_zero, leading, if_pos normal]
    split <;> omega

end Half

end Format

namespace FloatKind

variable {x : Binary32}

/-- A word of half precision with its sign bit taken from the word that it stores. -/
private theorem word_binary16 {code : Nat} (fits : code < 2 ^ 15) :
    Format.binary16.word x.isNegative code = (x.toNat >>> 16 &&& 0x8000) ||| code := by
  rw [x.sign_upper, Format.word_eq_or _ _ fits]
  rfl

private theorem encode_f16_of_finite (finite : x.code < 0x7F800000) :
    FloatKind.f16.encode x = x.toHalf := by
  have number : x.isNaN = false :=
    Bool.eq_false_iff.mpr fun nan => Nat.lt_asymm finite (Binary32.isNaN_iff.mp nan)
  have inside : x.code ≤ Format.binary32.lastCode := Nat.le_pred_of_lt finite
  have room : Format.binary16.carriedCode .binary32 x.code < 2 ^ 15 :=
    Nat.lt_of_le_of_lt (Format.carriedCode_le ..) (by decide)
  have exponent := x.exponent_eq
  have fraction := x.fraction_eq
  -- the branches are taken for the same exponents
  have below : x.exponent ≠ 128 := by omega
  have past : 15 < x.exponent ↔ 142 < x.code / 2 ^ 23 := by omega
  have normal : -14 ≤ x.exponent ↔ 113 ≤ x.code / 2 ^ 23 := by omega
  have subnormal : -24 ≤ x.exponent ↔ 103 ≤ x.code / 2 ^ 23 := by omega
  rw [encode_eq _ number, format, word_binary16 room, Format.carriedCode_binary16_eq inside,
    Binary32.toHalf, if_neg below]
  simp only [past, normal, subnormal]
  split
  · rfl
  split
  · have place : (x.exponent + 15).toNat = x.code / 2 ^ 23 - 112 := by omega
    have kept : x.fraction >>> 13 < 2 ^ 10 := by
      rw [Nat.shiftRight_eq_div_pow]
      omega
    rw [divNearestEven_two_pow _ (by decide), ← fraction, place,
      ← Nat.shiftLeft_add_eq_or_of_lt kept, Nat.shiftLeft_eq, Nat.add_assoc]
    rfl
  split
  · have place : (-x.exponent - 1).toNat = 126 - x.code / 2 ^ 23 := by omega
    have leading : x.fraction ||| 0x800000 = 2 ^ 23 + x.fraction := by
      rw [Nat.or_comm]
      exact (Nat.two_pow_add_eq_or_of_lt x.fraction_lt 1).symm
    rw [place, leading, fraction, divNearestEven_two_pow _ (by omega)]
    simp only [Nat.one_shiftLeft]
  · rw [Nat.or_zero]

/-- Half precision is stored by the exponent of the number. -/
theorem encode_f16_eq (x : Binary32) : FloatKind.f16.encode x = x.toHalf := by
  have bound : x.code < 2 ^ 31 := x.code_lt
  have exponent := x.exponent_eq
  have fraction := x.fraction_eq
  rcases Nat.lt_trichotomy x.code 0x7F800000 with finite | infinite | nan
  · exact encode_f16_of_finite finite
  · have number : x.isNaN = false :=
      Bool.eq_false_iff.mpr fun nan => Nat.not_lt.mpr infinite.le (Binary32.isNaN_iff.mp nan)
    have carried : Format.binary16.carriedCode .binary32 0x7F800000 = 0x7C00 := by decide
    rw [encode_eq _ number, format, infinite, carried, Binary32.toHalf, if_pos (by omega),
      if_pos (by omega), word_binary16 (by decide), Nat.or_zero]
  · have datum : x.datum = .nan := Format.datum_of_isNaN (Binary32.isNaN_iff.mpr nan)
    rw [encode, datum, Format.convert, Binary32.toHalf, if_pos (by omega), if_neg (by omega),
      word_binary16 (by decide), Nat.or_assoc]
    rfl

end FloatKind

namespace Binary32

/-- Doubles a fraction until it has a leading bit in the eleventh place, and lowers the exponent by
one each time. -/
def normalize (fraction : Nat) (exponent : Int) : Nat × Int :=
  if 0 < fraction ∧ fraction < 0x400 then normalize (2 * fraction) (exponent - 1)
  else (fraction, exponent)
termination_by 0x400 - fraction

/-- What is doubled is still the same number, and in the end it has eleven bits. -/
private theorem normalize_steps (fraction : Nat) (exponent : Int) (some : 0 < fraction)
    (small : fraction < 0x800) :
    ∃ steps : Nat, normalize fraction exponent = (fraction * 2 ^ steps, exponent - steps) ∧
      0x400 ≤ fraction * 2 ^ steps ∧ fraction * 2 ^ steps < 0x800 := by
  fun_induction normalize fraction exponent with
  | case1 fraction exponent within ih =>
    obtain ⟨steps, result, leading, bound⟩ := ih (by omega) (by omega)
    have same : 2 * fraction * 2 ^ steps = fraction * 2 ^ (steps + 1) := by ring
    rw [same] at result leading bound
    refine ⟨steps + 1, ?_, leading, bound⟩
    rw [result, Int.sub_sub, Int.add_comm, Int.natCast_succ]
  | case2 fraction exponent done =>
    exact ⟨0, by simp, by omega, by omega⟩

/-- The number of a half precision word, by its exponent: the fraction gets zeros behind it, and in
the first binade its leading bit becomes the implicit one. -/
def ofHalf (word : Nat) : Binary32 :=
  let sign := (word &&& 0x8000) <<< 16
  let exponent := word >>> 10 &&& 0x1F
  let fraction := word &&& 0x3FF
  ofNat <|
    if exponent = 31 then sign ||| 0x7F800000 ||| fraction <<< 13
    else if exponent = 0 then
      if fraction = 0 then sign
      else
        let (leading, exponent) := normalize fraction (-14)
        sign ||| (exponent + 127).toNat <<< 23 ||| (leading &&& 0x3FF) <<< 13
    else sign ||| (exponent + 127 - 15) <<< 23 ||| fraction <<< 13

end Binary32

namespace Format

/-- The units of a word by its exponent and its fraction. -/
private theorem units_binary32_fields {exponent fraction : Nat} (later : 1 ≤ exponent)
    (fits : fraction < 2 ^ 23) :
    binary32.units (exponent <<< 23 ||| fraction) = (2 ^ 23 + fraction) * 2 ^ (exponent - 1) := by
  have bits : binary32.fractionBits = 23 := rfl
  have remainder : (exponent * 2 ^ 23 + fraction) % 2 ^ 23 = fraction := by omega
  have quotient : (exponent * 2 ^ 23 + fraction) / 2 ^ 23 = exponent := by omega
  rw [← Nat.shiftLeft_add_eq_or_of_lt fits, Nat.shiftLeft_eq,
    binary32.units_of_le (by rw [bits]; omega), bits, remainder, quotient]

private theorem fields_le_topCode {exponent fraction : Nat} (finite : exponent < 255)
    (fits : fraction < 2 ^ 23) : exponent <<< 23 ||| fraction ≤ binary32.topCode := by
  have top : binary32.topCode = 255 * 2 ^ 23 := rfl
  rw [← Nat.shiftLeft_add_eq_or_of_lt fits, Nat.shiftLeft_eq, top]
  omega

/-- The single precision code of a number of half precision. -/
private theorem carriedCode_of_units {code wide : Nat} (inside : code ≤ binary16.lastCode)
    (fits : wide ≤ binary32.topCode)
    (same : binary32.units wide = binary16.units code * 2 ^ 125) :
    binary32.carriedCode binary16 code = wide := by
  rw [carriedCode_of_le_lastCode binary16_proper inside]
  apply convertedCode_of_magnitude (by decide) fits
  rw [magnitude, magnitude, same]
  norm_num [binary16, binary32]
  ring

/-- In the later binades of half precision a code keeps its fraction, and the bias changes. -/
private theorem carriedCode_of_normal {code : Nat} (inside : code ≤ binary16.lastCode)
    (later : 2 ^ 10 ≤ code) :
    binary32.carriedCode binary16 code =
      (code / 2 ^ 10 + 127 - 15) <<< 23 ||| (code % 2 ^ 10) <<< 13 := by
  have bits : binary16.fractionBits = 10 := rfl
  have last : code ≤ 0x7BFF := inside
  have fraction : (code % 2 ^ 10) <<< 13 < 2 ^ 23 := by
    rw [Nat.shiftLeft_eq]
    omega
  apply carriedCode_of_units inside (fields_le_topCode (by omega) fraction)
  have shift : code / 2 ^ 10 + 127 - 15 - 1 = code / 2 ^ 10 - 1 + 112 := by omega
  rw [units_binary32_fields (by omega) fraction, binary16.units_of_le (by rwa [bits]), bits, shift,
    Nat.shiftLeft_eq]
  ring

/-- In the first binade of half precision the leading bit of a code becomes the implicit one. -/
private theorem carriedCode_of_subnormal {code : Nat} (some : 0 < code) (first : code < 2 ^ 10) :
    binary32.carriedCode binary16 code =
      ((Binary32.normalize code (-14)).2 + 127).toNat <<< 23 |||
        ((Binary32.normalize code (-14)).1 &&& 0x3FF) <<< 13 := by
  obtain ⟨steps, result, leading, bound⟩ := Binary32.normalize_steps code (-14) some (by omega)
  have few : steps < 11 := by
    have power : 1 * 2 ^ steps ≤ code * 2 ^ steps := Nat.mul_le_mul_right _ some
    exact (Nat.pow_lt_pow_iff_right (by decide : 1 < 2)).mp (by omega)
  have place : (-14 - (steps : Int) + 127).toNat = 113 - steps := by omega
  have rest : code * 2 ^ steps &&& 0x3FF = code * 2 ^ steps - 2 ^ 10 := by
    have field : code * 2 ^ steps &&& 0x3FF = code * 2 ^ steps % 2 ^ 10 :=
      Nat.and_two_pow_sub_one_eq_mod _ 10
    omega
  have fraction : (code * 2 ^ steps - 2 ^ 10) <<< 13 < 2 ^ 23 := by
    rw [Nat.shiftLeft_eq]
    omega
  have inside : code ≤ binary16.lastCode := Nat.le_of_lt (Nat.lt_trans first (by decide))
  rw [result, place, rest]
  apply carriedCode_of_units inside (fields_le_topCode (by omega) fraction)
  have whole : 2 ^ 23 + (code * 2 ^ steps - 2 ^ 10) * 2 ^ 13 = code * 2 ^ steps * 2 ^ 13 := by omega
  have shift : 125 = steps + 13 + (113 - steps - 1) := by omega
  rw [units_binary32_fields (by omega) fraction, Nat.shiftLeft_eq, whole,
    binary16.units_of_lt first, shift, Nat.pow_add, Nat.pow_add]
  simp only [Nat.mul_assoc]

end Format

namespace FloatKind

section HalfFields

variable (word : Nat)

private theorem half_exponent : word >>> 10 &&& 0x1F = word % 2 ^ 15 / 2 ^ 10 := by
  have field : word >>> 10 &&& 0x1F = word / 2 ^ 10 % 2 ^ 5 := by
    rw [Nat.shiftRight_eq_div_pow]
    exact Nat.and_two_pow_sub_one_eq_mod _ 5
  rw [field]
  omega

private theorem half_fraction : word &&& 0x3FF = word % 2 ^ 15 % 2 ^ 10 := by
  have field : word &&& 0x3FF = word % 2 ^ 10 := Nat.and_two_pow_sub_one_eq_mod _ 10
  rw [field]
  omega

/-- A single precision word with the sign of a word of half precision. -/
private theorem word_binary32 {wide : Nat} (fits : wide < 2 ^ 31) :
    Format.binary32.word (Format.binary16.isNegative word) wide =
      (word &&& 0x8000) <<< 16 ||| wide := by
  have alone : word &&& 0x8000 = if Format.binary16.isNegative word then 0x8000 else 0 :=
    Format.binary16.and_signBit word
  rw [alone, Format.word_eq_or _ _ fits]
  cases Format.binary16.isNegative word <;> rfl

private theorem decode_f16_of_finite (finite : word % 2 ^ 15 < 0x7C00) :
    FloatKind.f16.decode word = .ofHalf word := by
  have code : Format.binary16.code word = word % 2 ^ 15 := rfl
  have number : Format.binary16.isNaN word = false :=
    Bool.eq_false_iff.mpr fun nan => Nat.lt_asymm finite (Format.isNaN_iff.mp nan)
  have inside : word % 2 ^ 15 ≤ Format.binary16.lastCode := Nat.le_pred_of_lt finite
  have room : Format.binary32.carriedCode .binary16 (word % 2 ^ 15) < 2 ^ 31 :=
    Nat.lt_of_le_of_lt (Format.carriedCode_le ..) (by decide)
  have exponent := half_exponent word
  have fraction := half_fraction word
  simp only [decode]
  rw [Format.convert_eq _ _ _ number, code, word_binary32 word room, Binary32.ofHalf,
    if_neg (by omega)]
  split
  · next first =>
    split
    · next none =>
      have zero : word % 2 ^ 15 = 0 := by omega
      rw [zero, Format.carriedCode_zero Format.binary16_proper, Nat.or_zero]
    · next some =>
      have same : word &&& 0x3FF = word % 2 ^ 15 := by omega
      rw [same] at some ⊢
      rw [Format.carriedCode_of_subnormal (by omega) (by omega), ← Nat.or_assoc]
  · next later =>
    rw [Format.carriedCode_of_normal inside (by omega), exponent, fraction, ← Nat.or_assoc]

/-- Half precision is loaded by its exponent. -/
theorem decode_f16_eq : FloatKind.f16.decode word = .ofHalf word := by
  have code : Format.binary16.code word = word % 2 ^ 15 := rfl
  have exponent := half_exponent word
  have fraction := half_fraction word
  rcases Nat.lt_trichotomy (word % 2 ^ 15) 0x7C00 with finite | infinite | nan
  · exact decode_f16_of_finite word finite
  · have number : Format.binary16.isNaN word = false :=
      Bool.eq_false_iff.mpr fun nan => Nat.not_lt.mpr infinite.le (Format.isNaN_iff.mp nan)
    have carried : Format.binary32.carriedCode .binary16 0x7C00 = 0x7F800000 := by decide
    have none : word &&& 0x3FF = 0 := by omega
    simp only [decode]
    rw [Format.convert_eq _ _ _ number, code, infinite, carried, word_binary32 word (by decide),
      Binary32.ofHalf, if_pos (by omega), none, Nat.zero_shiftLeft, Nat.or_zero]
  · have payload : (word &&& 0x3FF) <<< 13 < 2 ^ 23 := by
      rw [fraction, Nat.shiftLeft_eq]
      omega
    have quiet : 0x7F800000 + (word &&& 0x3FF) <<< 13 = 0x7F800000 ||| (word &&& 0x3FF) <<< 13 :=
      Nat.shiftLeft_add_eq_or_of_lt payload 255
    simp only [decode]
    rw [Format.datum_of_isNaN (Format.isNaN_iff.mpr nan), Format.convert,
      word_binary32 word (by omega), quiet, Binary32.ofHalf, if_pos (by omega), Nat.or_assoc]

end HalfFields

end FloatKind

namespace Binary32

/-- The integer nearest to a magnitude times a power of two, a half going to the even one. -/
def nearestInteger (units : Nat) (power : Int) : Nat :=
  divNearestEven (units * 2 ^ power.toNat) (2 ^ (149 + (-power).toNat))

/-- The code of eight bits for a magnitude: the largest one from 448 on, the nearest multiple of the
smallest one in the first binade, and else the nearest of the eight steps of its binade, or the first
step of the next. -/
def float8Code (units : Nat) : Nat :=
  let exponent : Int := units.log2 - 149
  if 448 * unitsInOne ≤ units then 0x7E
  else if units = 0 ∨ exponent < -6 then nearestInteger units 9
  else
    let steps := nearestInteger units (3 - exponent)
    let (exponent, steps) := if 16 ≤ steps then (exponent + 1, 8) else (exponent, steps)
    let code := (exponent + 7).toNat <<< 3 ||| (steps - 8)
    if 0x7E < code then 0x7E else code

/-- The word of eight bits of a number, by its exponent. -/
def toFloat8 (x : Binary32) : Nat :=
  let sign := if x.isNegative then 0x80 else 0x00
  match x.datum with
  | .nan => sign ||| 0x7F
  | .infinite _ => sign ||| 0x7E
  | .finite _ units => sign ||| float8Code units

/-- A power of two that leaves a multiple of the smallest magnitude. -/
private theorem nearestInteger_eq (units : Nat) {power : Int} {k : Nat} (place : 149 = power + k) :
    nearestInteger units power = divNearestEven units (2 ^ k) := by
  have same : 149 + (-power).toNat = k + power.toNat := by omega
  rw [nearestInteger, same, Nat.pow_add, divNearestEven_mul_mul _ _ (Nat.two_pow_pos _)]

end Binary32

namespace Format

/-- Eight bits count in `2 ^ 140` units of single precision. -/
private theorem convertedCode_float8 (units : Nat) :
    float8.convertedCode binary32 units = min 0x7E
      ((units.log2 - 143) * 2 ^ 3 + divNearestEven units (2 ^ (140 + (units.log2 - 143)))) := by
  have falls : binary32.quantum - float8.quantum = -140 := rfl
  have keeps : float8.flushesTiny = false := rfl
  have top : float8.topCode = 0x7E := rfl
  have bits : float8.fractionBits = 3 := rfl
  rw [convertedCode, falls, if_neg (by decide), neg_neg, show (140 : Int).toNat = 140 from rfl,
    Nat.one_shiftLeft, roundedCode, keeps, Bool.false_and, if_neg Bool.false_ne_true, top,
    nearestCode_two_pow, bits, Nat.sub_sub]

/-- In a binade a number is rounded to an eighth of its smallest magnitude, of which there are eight
to sixteen in a number. -/
private theorem leading_steps {units : Nat} (large : 3 ≤ units.log2) :
    8 ≤ divNearestEven units (2 ^ (units.log2 - 3)) ∧
      divNearestEven units (2 ^ (units.log2 - 3)) ≤ 16 := by
  have some : units ≠ 0 := fun zero => by simp [zero] at large
  have bounds := divNearestEven_bounds units (2 ^ (units.log2 - 3))
  have lower : 8 ≤ units / 2 ^ (units.log2 - 3) := by
    rw [Nat.le_div_iff_mul_le (Nat.two_pow_pos _), show 8 = 2 ^ 3 from rfl, ← Nat.pow_add,
      Nat.add_sub_cancel' large]
    exact Nat.log2_self_le some
  have upper : units / 2 ^ (units.log2 - 3) < 16 := by
    rw [Nat.div_lt_iff_lt_mul (Nat.two_pow_pos _), show 16 = 2 ^ 4 from rfl, ← Nat.pow_add,
      show 4 + (units.log2 - 3) = units.log2 + 1 by omega]
    exact Nat.lt_log2_self
  omega

/-- Eight bits by the exponent of a number. -/
private theorem convertedCode_float8_eq (units : Nat) :
    float8.convertedCode binary32 units = Binary32.float8Code units := by
  have one : Binary32.unitsInOne = 2 ^ 149 := by decide
  rw [convertedCode_float8, Binary32.float8Code]
  dsimp only
  split
  -- from 448 on the steps lead to the last code or past it
  · next large =>
    have log : 157 ≤ units.log2 := (Nat.le_log2 (by omega)).mpr (by omega)
    have place : 140 + (units.log2 - 143) = units.log2 - 3 := by omega
    have steps := leading_steps (by omega : 3 ≤ units.log2)
    rw [place]
    refine Nat.min_eq_left ?_
    rcases Nat.eq_or_lt_of_le log with last | beyond
    · have bounds := divNearestEven_bounds units (2 ^ (units.log2 - 3))
      rw [← last] at bounds ⊢
      omega
    · omega
  split
  · next tiny =>
    have small : units.log2 < 143 := by
      rcases tiny with rfl | below
      · decide
      · omega
    have below : units < 2 ^ 143 :=
      Nat.lt_of_lt_of_le Nat.lt_log2_self (Nat.pow_le_pow_right (by decide) small)
    have bounds := divNearestEven_bounds units (2 ^ 140)
    rw [Binary32.nearestInteger_eq units (by rfl : (149 : Int) = 9 + (140 : Nat)),
      Nat.sub_eq_zero_of_le small.le, Nat.zero_mul, Nat.zero_add, Nat.add_zero]
    exact Nat.min_eq_right (by omega)
  · next normal =>
    have log : 143 ≤ units.log2 := by omega
    have place : 140 + (units.log2 - 143) = units.log2 - 3 := by omega
    have power : (149 : Int) = 3 - ((units.log2 : Int) - 149) + (units.log2 - 3 : Nat) := by omega
    obtain ⟨lower, upper⟩ := leading_steps (by omega : 3 ≤ units.log2)
    rw [place, Binary32.nearestInteger_eq units power]
    generalize divNearestEven units (2 ^ (units.log2 - 3)) = steps at lower upper
    by_cases next : 16 ≤ steps
    -- the sixteenth step is the first one of the next binade
    · simp only [if_pos next, Nat.sub_self, Nat.or_zero, Nat.shiftLeft_eq]
      split <;> omega
    · have rest : steps - 8 < 2 ^ 3 := by omega
      simp only [if_neg next, ← Nat.shiftLeft_add_eq_or_of_lt rest]
      rw [Nat.shiftLeft_eq]
      split <;> omega

/-- The magnitude of a code of eight bits, by its exponent and its fraction. -/
private theorem magnitude_float8 (code : Nat) : float8.magnitude code =
    if code / 2 ^ 3 = 0 then ((code % 2 ^ 3 : Nat) : ℚ) * 2 ^ (-9 : ℤ)
    else (1 + ((code % 2 ^ 3 : Nat) : ℚ) / 8) * 2 ^ ((code / 2 ^ 3 : Nat) - 7 : ℤ) := by
  have bits : float8.fractionBits = 3 := rfl
  have quantum : float8.quantum = -9 := rfl
  rw [magnitude, quantum]
  split
  · next first =>
    rw [float8.units_of_lt (by rw [bits]; omega), Nat.mod_eq_of_lt (by omega : code < 2 ^ 3)]
  · next later =>
    obtain ⟨binade, next⟩ := Nat.exists_eq_succ_of_ne_zero later
    have power : ((binade.succ : Nat) - 7 : ℤ) = binade + 3 + -9 := by omega
    rw [float8.units_of_le (by rw [bits]; omega), bits, next, Nat.succ_sub_one, power,
      zpow_add₀ (by norm_num), zpow_add₀ (by norm_num), zpow_natCast]
    push_cast
    ring

end Format

namespace FloatKind

/-- Eight bits are stored by the exponent of the number. -/
theorem encode_f8_eq (x : Binary32) : FloatKind.f8.encode x = x.toFloat8 := by
  have word {code : Nat} (fits : code < 2 ^ 7) : Format.float8.word x.isNegative code =
      (if x.isNegative then 0x80 else 0x00) ||| code := Format.word_eq_or _ _ fits
  rw [encode, Binary32.toFloat8]
  cases found : x.datum with
  | nan => exact word (by decide)
  | infinite negative =>
    obtain ⟨sign, -⟩ := Format.code_of_datum_infinite found
    rw [Format.convert, ← sign]
    exact word (by decide)
  | finite negative units =>
    obtain ⟨sign, -⟩ := Format.code_of_datum_finite found
    have room : Binary32.float8Code units < 2 ^ 7 := by
      rw [← Format.convertedCode_float8_eq]
      exact Nat.lt_of_le_of_lt (Format.convertedCode_le ..) (by decide)
    rw [Format.convert, ← sign, Format.convertedCode_float8_eq]
    exact word room

/-- Eight bits are loaded as the number that their exponent and fraction say. -/
theorem decode_f8_fields (word : Nat) :
    let negative := word &&& 0x80 != 0
    let exponent := word >>> 3 &&& 0xF
    let fraction := word &&& 0x7
    (FloatKind.f8.decode word).isNegative = negative ∧
      if exponent = 0xF ∧ fraction = 0x7 then (FloatKind.f8.decode word).code = 0x7FC00000
      else (FloatKind.f8.decode word).number? = some (withSign negative
        (if exponent = 0 then fraction * 2 ^ (-9 : ℤ)
          else (1 + fraction / 8) * 2 ^ ((exponent : ℤ) - 7))) := by
  intro negative exponent fraction
  have code : Format.float8.code word = word % 2 ^ 7 := rfl
  have sign : negative = Format.float8.isNegative word := by
    have alone : word &&& 0x80 = if Format.float8.isNegative word then 0x80 else 0 :=
      Format.float8.and_signBit word
    rw [show negative = (word &&& 0x80 != 0) from rfl, alone]
    cases Format.float8.isNegative word <;> rfl
  have top : exponent = word % 2 ^ 7 / 2 ^ 3 := by
    have field : exponent = word / 2 ^ 3 % 2 ^ 4 := by
      rw [← Nat.shiftRight_eq_div_pow]
      exact Nat.and_two_pow_sub_one_eq_mod _ 4
    omega
  have low : fraction = word % 2 ^ 7 % 2 ^ 3 := by
    have field : fraction = word % 2 ^ 3 := Nat.and_two_pow_sub_one_eq_mod _ 3
    omega
  rw [sign]
  by_cases nan : Format.float8.isNaN word = true
  · have above : 0x7E < word % 2 ^ 7 := Format.isNaN_iff.mp nan
    have loaded : FloatKind.f8.decode word =
        .ofNat (Format.binary32.word (Format.float8.isNegative word) 0x7FC00000) := by
      simp only [decode]
      rw [Format.datum_of_isNaN nan, Format.convert]
    rw [loaded, if_pos (by omega)]
    cases Format.float8.isNegative word <;> exact ⟨by decide, by decide⟩
  · have inside : ¬0x7E < word % 2 ^ 7 := fun above => nan (Format.isNaN_iff.mpr above)
    have shown : Format.float8.number? word = some
        (withSign (Format.float8.isNegative word) (Format.float8.magnitude (word % 2 ^ 7))) := by
      have last : Format.float8.topCode = 0x7E := rfl
      simp only [Format.number?, Format.datum, code, last, if_neg inside]
      rfl
    refine ⟨isNegative_decode .f8 nan, ?_⟩
    rw [if_neg (by omega), number?_decode (.inl rfl), format, shown, Format.magnitude_float8,
      ← top, ← low]

end FloatKind

end QuantLinear
