import QuantLinear.Numeric.Binary32
import Mathlib.Algebra.Ring.Nat

/-!
Rounding numbers that a format has.

Each code of a format counts some units of its quantum. Rounding that many units gives the code back:
what a format stores exactly comes out of an operation as it went in.
-/

namespace QuantLinear

/-- A quotient without a remainder needs no rounding. -/
private theorem divNearestEven_mul {den : Nat} (some : 0 < den) (n : Nat) :
    divNearestEven (n * den) den = n := by
  have quotient : n * den / den = n := Nat.mul_div_cancel n some
  have remainder : n * den % den = 0 := Nat.mul_mod_left n den
  simp [divNearestEven, quotient, remainder, some]

namespace Format

variable (f : Format) {code : Nat}

/-- The codes of the first binade count the units themselves. -/
theorem units_of_lt (first : code < 2 ^ f.fractionBits) : f.units code = code := by
  simp only [units, Nat.one_shiftLeft, if_pos first]

/-- A later binade has the same fractions as the one before it, in steps twice as wide. -/
theorem units_of_le (later : 2 ^ f.fractionBits ≤ code) :
    f.units code = (2 ^ f.fractionBits + code % 2 ^ f.fractionBits) *
      2 ^ (code / 2 ^ f.fractionBits - 1) := by
  rw [units, Nat.one_shiftLeft, if_neg (Nat.not_lt.mpr later), Nat.shiftLeft_eq]

theorem units_pos (some : 0 < code) : 0 < f.units code := by
  by_cases first : code < 2 ^ f.fractionBits
  · rwa [f.units_of_lt first]
  · rw [f.units_of_le (Nat.not_lt.mp first)]
    exact Nat.mul_pos (Nat.add_pos_left (Nat.two_pow_pos _) _) (Nat.two_pow_pos _)

@[simp] theorem units_zero : f.units 0 = 0 := f.units_of_lt (Nat.two_pow_pos _)

theorem code_of_units_zero (none : f.units code = 0) : code = 0 :=
  Nat.eq_zero_of_not_pos fun some => absurd none (Nat.ne_of_gt (f.units_pos some))

theorem log2_units (later : 2 ^ f.fractionBits ≤ code) :
    (f.units code).log2 = f.fractionBits + (code / 2 ^ f.fractionBits - 1) := by
  have some : 0 < f.units code := f.units_pos (Nat.lt_of_lt_of_le (Nat.two_pow_pos _) later)
  have fraction : code % 2 ^ f.fractionBits < 2 ^ f.fractionBits :=
    Nat.mod_lt _ (Nat.two_pow_pos _)
  have step : 0 < 2 ^ (code / 2 ^ f.fractionBits - 1) := Nat.two_pow_pos _
  apply (Nat.log2_eq_iff (Nat.ne_of_gt some)).mpr
  rw [f.units_of_le later]
  -- the leading bit of the binade stays the leading one, whatever the fraction
  constructor
  · rw [Nat.pow_add]
    exact Nat.mul_le_mul_right _ (Nat.le_add_right _ _)
  · rw [Nat.add_right_comm, Nat.pow_add, Nat.pow_succ]
    apply Nat.mul_lt_mul_of_pos_right _ step
    omega

/-- The code nearest to the units of a code is that code. -/
private theorem nearestCode_units (code : Nat) : f.nearestCode (f.units code) 1 = code := by
  by_cases first : code < 2 ^ f.fractionBits
  · -- there is nothing to shift, and units are codes
    have log : code.log2 - f.fractionBits = 0 := by
      apply Nat.sub_eq_zero_of_le
      by_cases zero : code = 0
      · rw [zero]
        exact Nat.zero_le _
      · exact Nat.le_of_lt ((Nat.log2_lt zero).mpr first)
    have exact := divNearestEven_mul Nat.one_pos code
    rw [Nat.mul_one] at exact
    simp [nearestCode, f.units_of_lt first, log, exact]
  · have later := Nat.not_lt.mp first
    have binade : 1 ≤ code / 2 ^ f.fractionBits :=
      (Nat.one_le_div_iff (Nat.two_pow_pos _)).mpr later
    have shift : (f.units code).log2 - f.fractionBits = code / 2 ^ f.fractionBits - 1 := by
      rw [f.log2_units later]
      exact Nat.add_sub_cancel_left ..
    -- the binade of the code and the fraction within it
    calc f.nearestCode (f.units code) 1
        = (code / 2 ^ f.fractionBits - 1) * 2 ^ f.fractionBits +
            (2 ^ f.fractionBits + code % 2 ^ f.fractionBits) := by
          simp only [nearestCode, Nat.div_one, shift, Nat.shiftLeft_eq, Nat.one_mul]
          rw [f.units_of_le later, divNearestEven_mul (Nat.two_pow_pos _)]
      _ = code / 2 ^ f.fractionBits * 2 ^ f.fractionBits + code % 2 ^ f.fractionBits := by
          rw [← Nat.add_assoc, ← Nat.succ_mul, Nat.succ_eq_add_one, Nat.sub_add_cancel binade]
      _ = code := Nat.div_add_mod' ..

/-- A number that a format has is stored as it is. -/
theorem roundedCode_units (fits : code ≤ f.topCode) : f.roundedCode (f.units code) 1 = code := by
  rw [roundedCode, f.nearestCode_units, Nat.min_eq_right fits]
  -- only zero is below one unit
  rcases Nat.eq_zero_or_pos code with zero | some
  · simp [zero]
  · have above : ¬f.units code < 1 := Nat.not_lt.mpr (f.units_pos some)
    simp [above]

@[simp] theorem roundedCode_zero (den : Nat) : f.roundedCode 0 den = 0 := by
  simp [roundedCode, nearestCode, divNearestEven]

@[simp] theorem convertedCode_zero (source : Format) : f.convertedCode source 0 = 0 := by
  simp [convertedCode]

theorem word_lt (negative : Bool) (fits : code < f.signBit) :
    f.word negative code < 2 * f.signBit := by
  rw [word]
  split <;> omega

theorem roundedCode_le (num den : Nat) : f.roundedCode num den ≤ f.topCode := by
  rw [roundedCode]
  split
  · exact Nat.zero_le _
  · exact Nat.min_le_left ..

theorem convertedCode_le (source : Format) (units : Nat) :
    f.convertedCode source units ≤ f.topCode := by
  rw [convertedCode]
  split <;> exact f.roundedCode_le ..

/-- A stored number takes a word of the format. -/
theorem convert_lt (source : Format) (top : f.topCode < f.signBit) {nan : Nat}
    (quiet : nan < 2 * f.signBit) (datum : Datum) : f.convert source nan datum < 2 * f.signBit := by
  cases datum with
  | nan => exact quiet
  | infinite negative => exact f.word_lt negative top
  | finite negative units =>
    exact f.word_lt negative (Nat.lt_of_le_of_lt (f.convertedCode_le source units) top)

end Format

end QuantLinear
