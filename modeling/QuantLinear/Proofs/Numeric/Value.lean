import Mathlib.Tactic.FieldSimp
import QuantLinear.Proofs.Numeric.Nearest
import QuantLinear.Proofs.Numeric.SameNumber

/-!
The rational numbers that words stand for.

A finite word stands for a multiple of the quantum of its format. A word of one format that is stored
in another becomes the nearest of its finite words, of two equally near ones the one with an even code
(`nearestTo_convert`). A format that is finer and reaches further takes it as it is
(`number?_convert`), so that loading a narrow word shows the number it stands for.
-/

namespace QuantLinear

/-- A magnitude with its sign, as a rational number. -/
def withSign (negative : Bool) (magnitude : ℚ) : ℚ := if negative then -magnitude else magnitude

theorem abs_withSign (negative : Bool) {magnitude : ℚ} (positive : 0 ≤ magnitude) :
    |withSign negative magnitude| = magnitude := by
  cases negative <;> simp [withSign, abs_of_nonneg positive]

/-- Numbers of one sign are as far apart as their magnitudes. -/
theorem abs_withSign_sub (negative : Bool) (a b : ℚ) :
    |withSign negative a - withSign negative b| = |a - b| := by
  cases negative
  · simp [withSign]
  · rw [withSign, withSign, if_pos rfl, if_pos rfl, neg_sub_neg, abs_sub_comm]

/-- Numbers of different signs are as far apart as both magnitudes reach. -/
private theorem abs_withSign_sub_of_ne {s t : Bool} (other : s ≠ t) {a b : ℚ} (first : 0 ≤ a)
    (second : 0 ≤ b) :
    |withSign s a - withSign t b| = a + b := by
  cases s <;> cases t
  · exact absurd rfl other
  · simp [withSign, abs_of_nonneg (add_nonneg first second)]
  · rw [withSign, withSign, if_pos rfl, if_neg Bool.false_ne_true, ← neg_add', abs_neg,
      abs_of_nonneg (add_nonneg first second)]
  · exact absurd rfl other

namespace Format

variable (f : Format)

/-- The magnitude that a code stands for. -/
def magnitude (code : Nat) : ℚ := f.units code * 2 ^ f.quantum

/-- The number that a word stands for; NaNs and infinities stand for none. -/
def number? (word : Nat) : Option ℚ :=
  match f.datum word with
  | .finite negative units => some (withSign negative (units * 2 ^ f.quantum))
  | _ => none

theorem quantum_pos : (0 : ℚ) < 2 ^ f.quantum := zpow_pos (by norm_num) _

theorem magnitude_nonneg (code : Nat) : 0 ≤ f.magnitude code :=
  mul_nonneg (Nat.cast_nonneg _) f.quantum_pos.le

theorem magnitude_strictMono : StrictMono f.magnitude := fun a b less => by
  have units : (f.units a : ℚ) < f.units b := by exact_mod_cast f.units_strictMono less
  exact mul_lt_mul_of_pos_right units f.quantum_pos

variable {f}

private theorem datum_word (proper : f.Proper) (negative : Bool) {code : Nat}
    (fits : code ≤ f.lastCode) :
    f.datum (f.word negative code) = .finite negative (f.units code) := by
  have below := fits.trans f.lastCode_le
  have small := Nat.lt_of_le_of_lt below proper.top_lt
  have finite : ¬(f.topIsInfinite && code == f.topCode) = true := by
    intro top
    simp only [Bool.and_eq_true, beq_iff_eq] at top
    have positive := (proper.top_even top.1).1
    rw [lastCode, if_pos top.1] at fits
    omega
  simp only [datum, f.code_word negative small, f.isNegative_word negative small,
    if_neg (Nat.not_lt.mpr below), if_neg finite]

theorem number?_word (proper : f.Proper) (negative : Bool) {code : Nat} (fits : code ≤ f.lastCode) :
    f.number? (f.word negative code) = some (withSign negative (f.magnitude code)) := by
  simp only [number?, datum_word proper negative fits, magnitude]

/-- The words that stand for numbers. -/
private theorem code_of_number? {word : Nat} {y : ℚ} (shown : f.number? word = some y) :
    f.code word ≤ f.lastCode ∧ y = withSign (f.isNegative word) (f.magnitude (f.code word)) := by
  rw [number?] at shown
  split at shown
  · next negative units found =>
    obtain ⟨sign, count, below⟩ := code_of_datum_finite found
    have infinite : f.topIsInfinite = true → f.code word ≠ f.topCode := by
      intro top same
      simp [datum, top, same] at found
    refine ⟨?_, ?_⟩
    · rw [lastCode]
      split
      · next top => exact Nat.le_pred_of_lt (Nat.lt_of_le_of_ne below (infinite top))
      · exact below
    · rw [magnitude, ← count, sign]
      exact (Option.some.inj shown).symm
  · cases shown

/-- Whether a word stands for the number nearest to `x` of all numbers of its format. Where another
number is as near, the code of the word is even. -/
def NearestTo (f : Format) (x : ℚ) (word : Nat) : Prop :=
  ∃ y, f.number? word = some y ∧ ∀ other z, f.number? other = some z →
    |y - x| ≤ |z - x| ∧ (|y - x| = |z - x| → z = y ∨ f.code word % 2 = 0)

/-- A preferred code gives the nearest word of either sign. -/
theorem nearestTo_word (proper : f.Proper) (negative : Bool) {code : Nat} {m : ℚ} (positive : 0 ≤ m)
    (fits : code ≤ f.lastCode) (prefer : ∀ other ≤ f.lastCode, f.Preferred m code other) :
    f.NearestTo (withSign negative (m * 2 ^ f.quantum)) (f.word negative code) := by
  have wide := f.quantum_pos
  have scale (c : Nat) :
      |f.magnitude c - m * 2 ^ f.quantum| = |(f.units c : ℚ) - m| * 2 ^ f.quantum := by
    rw [magnitude, ← sub_mul, abs_mul, abs_of_pos wide]
  refine ⟨_, number?_word proper negative fits, fun other z shown => ?_⟩
  obtain ⟨inside, rfl⟩ := code_of_number? shown
  rw [abs_withSign_sub, scale, f.code_word negative
    (Nat.lt_of_le_of_lt (fits.trans f.lastCode_le) proper.top_lt)]
  by_cases same : f.isNegative other = negative
  · obtain ⟨near, tie⟩ := prefer _ inside
    rw [same, abs_withSign_sub, scale]
    refine ⟨mul_le_mul_of_nonneg_right near wide.le, fun equal => ?_⟩
    rcases tie (mul_right_cancel₀ wide.ne' equal) with code | even
    · exact .inl (by rw [code])
    · exact .inr even
  · -- on the other side of zero nothing is nearer than zero itself
    obtain ⟨near, tie⟩ := prefer 0 (Nat.zero_le _)
    rw [f.units_zero, Nat.cast_zero, zero_sub, abs_neg, abs_of_nonneg positive] at near tie
    rw [abs_withSign_sub_of_ne same (f.magnitude_nonneg _) (mul_nonneg positive wide.le), magnitude,
      ← add_mul]
    have units : (0 : ℚ) ≤ f.units (f.code other) := Nat.cast_nonneg _
    refine ⟨mul_le_mul_of_nonneg_right (by linarith) wide.le, fun equal => .inr ?_⟩
    have reached := mul_right_cancel₀ wide.ne' equal
    rcases tie (by linarith) with zero | even
    · rw [← zero]
    · exact even

section Conversion

variable (f) (source : Format)

/-- The code in which a format stores the magnitude of a code of another one, infinity included. -/
def carriedCode (code : Nat) : Nat :=
  if source.topIsInfinite && code == source.topCode then f.topCode
  else f.convertedCode source (source.units code)

theorem carriedCode_le (code : Nat) : f.carriedCode source code ≤ f.topCode := by
  rw [carriedCode]
  split
  · exact le_rfl
  · exact f.convertedCode_le ..

/-- A word that is no NaN is converted by its code. -/
theorem convert_eq (nan : Nat) {word : Nat} (number : source.isNaN word = false) :
    f.convert source nan (source.datum word) =
      f.word (source.isNegative word) (f.carriedCode source (source.code word)) := by
  have fits : ¬source.topCode < source.code word := by
    rw [← isNaN_iff, number]
    exact Bool.false_ne_true
  rw [datum, carriedCode]
  simp only [if_neg fits]
  split <;> rfl

/-- The magnitude that is converted, as a quotient in units of the target. -/
theorem convertedCode_eq (units : Nat) : ∃ num den : Nat, 0 < den ∧
    f.convertedCode source units = f.roundedCode num den ∧
    (num : ℚ) / den * 2 ^ f.quantum = units * 2 ^ source.quantum := by
  have two : (2 : ℚ) ≠ 0 := by norm_num
  rw [convertedCode]
  split
  · next rises =>
    refine ⟨_, 1, Nat.one_pos, rfl, ?_⟩
    have exponent : source.quantum = ((source.quantum - f.quantum).toNat : ℤ) + f.quantum := by omega
    rw [Nat.shiftLeft_eq, Nat.cast_one, div_one]
    push_cast
    conv_rhs => rw [exponent, zpow_add₀ two, zpow_natCast]
    rw [mul_assoc]
  · next falls =>
    obtain ⟨fall, depth⟩ : ∃ fall : Nat, (-(source.quantum - f.quantum)).toNat = fall := ⟨_, rfl⟩
    have exponent : f.quantum = fall + source.quantum := by omega
    refine ⟨units, 2 ^ fall, Nat.two_pow_pos _, by rw [depth, Nat.one_shiftLeft], ?_⟩
    rw [exponent, zpow_add₀ two, zpow_natCast]
    push_cast
    field_simp

variable {f} {source} {negative : Bool} {units : Nat}

/-- A number is stored in the nearest word, as far as the format does not flush it or end before it. -/
theorem nearestTo_convert (proper : f.Proper) (nan : Nat)
    (kept : f.flushesTiny = true → (units : ℚ) * 2 ^ source.quantum < 2 ^ f.quantum →
      2 * (units * 2 ^ source.quantum : ℚ) ≤ 2 ^ f.quantum)
    (reach : f.topIsInfinite = true → 2 * (units * 2 ^ source.quantum : ℚ) <
      f.magnitude f.lastCode + f.magnitude f.topCode) :
    f.NearestTo (withSign negative (units * 2 ^ source.quantum))
      (f.convert source nan (.finite negative units)) := by
  have wide := f.quantum_pos
  obtain ⟨num, den, some, code, value⟩ := f.convertedCode_eq source units
  have positive : (0 : ℚ) < den := Nat.cast_pos.mpr some
  rw [← value] at kept reach ⊢
  rw [convert, code]
  -- both conditions are on the quotient, in units of the target
  obtain ⟨fits, prefer⟩ := f.preferred_roundedCode proper some
    (fun flushes small => by
      have half := kept flushes (by
        rw [mul_lt_iff_lt_one_left wide, div_lt_one positive]
        exact_mod_cast small)
      rw [← mul_assoc, mul_le_iff_le_one_left wide, ← mul_div_assoc, div_le_one positive] at half
      exact_mod_cast half)
    (fun infinite => by
      have before := reach infinite
      rwa [magnitude, magnitude, ← add_mul, ← mul_assoc, mul_lt_mul_iff_left₀ wide] at before)
  exact nearestTo_word proper negative (by positivity) fits prefer

/-- From halfway past its last number on a format with infinity stores infinity. -/
theorem convert_of_beyond (proper : f.Proper) (infinite : f.topIsInfinite = true) (nan : Nat)
    (beyond : f.magnitude f.lastCode + f.magnitude f.topCode ≤
      2 * (units * 2 ^ source.quantum : ℚ)) :
    f.convert source nan (.finite negative units) = f.word negative f.topCode := by
  obtain ⟨num, den, some, code, value⟩ := f.convertedCode_eq source units
  rw [← value, magnitude, magnitude, ← add_mul, ← mul_assoc,
    mul_le_mul_iff_left₀ f.quantum_pos] at beyond
  rw [convert, code, f.roundedCode_of_beyond proper infinite some beyond]

/-- A format that flushes stores zero for all magnitudes below its smallest one. -/
theorem convert_of_tiny (flushes : f.flushesTiny = true) (nan : Nat)
    (tiny : (units : ℚ) * 2 ^ source.quantum < 2 ^ f.quantum) :
    f.convert source nan (.finite negative units) = f.word negative 0 := by
  obtain ⟨num, den, some, code, value⟩ := f.convertedCode_eq source units
  have small : num < den := by
    rw [← value, mul_lt_iff_lt_one_left f.quantum_pos, div_lt_one (Nat.cast_pos.mpr some)] at tiny
    exact_mod_cast tiny
  rw [convert, code, roundedCode, flushes, decide_eq_true small, Bool.true_and, if_pos rfl]

/-- A format has every number with as many leading bits as its fractions. -/
private theorem exists_units_eq (f : Format) {m : Nat} (narrow : m < 2 * 2 ^ f.fractionBits)
    (shift : Nat) :
    ∃ code, f.units code = m * 2 ^ shift := by
  -- by induction on the shift: a number that the first binade has doubled as well takes one step of
  -- the shift there, and any other one lies in the binade that the shift leads to
  induction shift generalizing m with
  | zero =>
    have first := f.units_steps (Or.inl rfl : (0 : Nat) = 0 ∨ _) narrow.le
    exact ⟨m, by simpa using first⟩
  | succ shift ih =>
    rcases Nat.lt_or_ge m (2 ^ f.fractionBits) with first | later
    · obtain ⟨code, count⟩ := ih (Nat.mul_lt_mul_of_pos_left first Nat.two_pos)
      exact ⟨code, by rw [count]; ring⟩
    · exact ⟨_, f.units_steps (.inr later) narrow.le⟩

/-- A finer format with room for a number takes it without rounding. -/
theorem convertedCode_exact (bits : source.fractionBits ≤ f.fractionBits)
    {rise : Nat} (finer : source.quantum = f.quantum + rise) {code : Nat}
    (room : source.units code * 2 ^ rise ≤ f.units f.lastCode) :
    f.convertedCode source (source.units code) ≤ f.lastCode ∧
      f.magnitude (f.convertedCode source (source.units code)) = source.magnitude code := by
  -- the units of the code are few bits and a shift, which the finer format has as well
  obtain ⟨shift, m, split, lower, upper⟩ := source.exists_steps code
  have wider : 2 ^ source.fractionBits ≤ 2 ^ f.fractionBits := Nat.pow_le_pow_right (by decide) bits
  obtain ⟨taken, same⟩ := f.exists_units_eq (by omega : m < 2 * 2 ^ f.fractionBits) (shift + rise)
  have units : source.units code * 2 ^ rise = f.units taken := by
    rw [same, split, source.units_steps lower upper.le, Nat.pow_add, Nat.mul_assoc]
  rw [units] at room
  have fits : taken ≤ f.lastCode := f.units_strictMono.le_iff_le.mp room
  have up : source.quantum - f.quantum = rise := by omega
  have stored : f.convertedCode source (source.units code) = taken := by
    rw [convertedCode, up, if_pos (Int.natCast_nonneg rise), Int.toNat_natCast, Nat.shiftLeft_eq, units,
      f.roundedCode_units (fits.trans f.lastCode_le)]
  rw [stored]
  refine ⟨fits, ?_⟩
  rw [magnitude, magnitude, ← units, finer, zpow_add₀ (by norm_num), zpow_natCast]
  push_cast
  ring

/-- A word that is no NaN is stored in a wider format as the number that it stands for. -/
theorem number?_convert (proper : f.Proper) (infinite : f.topIsInfinite = true)
    (bits : source.fractionBits ≤ f.fractionBits) {rise : Nat}
    (finer : source.quantum = f.quantum + rise)
    (room : source.units source.lastCode * 2 ^ rise ≤ f.units f.lastCode) (nan : Nat) {word : Nat}
    (number : ¬source.isNaN word = true) :
    f.number? (f.convert source nan (source.datum word)) = source.number? word := by
  cases found : source.datum word with
  | nan => exact absurd (isNaN_of_datum found) number
  | infinite negative =>
    have top : f.datum (f.word negative f.topCode) = .infinite negative := by
      simp [datum, infinite, f.code_word negative proper.top_lt, f.isNegative_word negative proper.top_lt]
    simp only [convert, number?, found, top]
  | finite negative units =>
    have shown : source.number? word = some (withSign negative (units * 2 ^ source.quantum)) := by
      simp only [number?, found]
    obtain ⟨inside, -⟩ := code_of_number? shown
    obtain ⟨-, count, -⟩ := code_of_datum_finite found
    have grown := source.units_strictMono.monotone inside
    obtain ⟨fits, same⟩ := convertedCode_exact bits finer
      ((Nat.mul_le_mul_right _ grown).trans room)
    rw [shown, convert, count, number?_word proper negative fits, same, magnitude]

end Conversion

theorem number?_of_isNaN {word : Nat} (nan : f.isNaN word = true) : f.number? word = none := by
  simp only [number?, datum_of_isNaN nan]

theorem float8_proper : float8.Proper := ⟨by decide, by decide, by decide⟩

theorem binary16_proper : binary16.Proper := ⟨by decide, by decide, by decide⟩

theorem bfloat16_proper : bfloat16.Proper := ⟨by decide, by decide, by decide⟩

theorem binary32_proper : binary32.Proper := ⟨by decide, by decide, by decide⟩

theorem binary64_proper : binary64.Proper := ⟨by decide, by decide, by decide⟩

end Format

namespace Binary32

/-- The number that a single precision word stands for. -/
def number? (x : Binary32) : Option ℚ := Format.binary32.number? x.toNat

/-- Whether a word is infinite or stands for a number of at least the given magnitude. -/
def Reaches (x : Binary32) (bound : ℚ) : Prop :=
  x.code = Format.binary32.topCode ∨ ∃ v, x.number? = some v ∧ bound ≤ |v|

variable {x : Binary32}

theorem toNat_ofNat {word : Nat} (fits : word < 2 ^ 32) : (ofNat word).toNat = word := by
  rw [toNat, ofNat, UInt32.toNat_ofNat']
  exact Nat.mod_eq_of_lt fits

theorem number?_of_datum {negative : Bool} {units : Nat} (found : x.datum = .finite negative units) :
    x.number? = some (withSign negative (units * 2 ^ Format.binary32.quantum)) := by
  have shown : Format.binary32.datum x.toNat = .finite negative units := found
  rw [number?, Format.number?, shown]

/-- A number as its sign and its units. -/
theorem datum_of_number? {v : ℚ} (shown : x.number? = some v) :
    ∃ units : Nat, x.datum = .finite x.isNegative units ∧
      |v| = units * 2 ^ Format.binary32.quantum ∧
      v = withSign x.isNegative (units * 2 ^ Format.binary32.quantum) := by
  rw [number?, Format.number?] at shown
  split at shown
  · next negative units found =>
    obtain ⟨sign, -, -⟩ := Format.code_of_datum_finite found
    have same : x.isNegative = negative := sign
    have positive : (0 : ℚ) ≤ units * 2 ^ Format.binary32.quantum :=
      mul_nonneg (Nat.cast_nonneg _) Format.binary32.quantum_pos.le
    rw [same, ← Option.some.inj shown]
    exact ⟨units, found, abs_withSign _ positive, rfl⟩
  · cases shown

/-- A word of a narrower format becomes the single precision word of the same number. -/
theorem number?_ofNat_convert {source : Format}
    (bits : source.fractionBits ≤ Format.binary32.fractionBits) {rise : Nat}
    (finer : source.quantum = Format.binary32.quantum + rise)
    (room : source.units source.lastCode * 2 ^ rise ≤
      Format.binary32.units Format.binary32.lastCode)
    {nan : Nat} (quiet : nan < Format.binary32.signBit) {word : Nat}
    (number : ¬source.isNaN word = true) :
    (ofNat (Format.binary32.convert source
      (Format.binary32.word (source.isNegative word) nan) (source.datum word))).number? =
      source.number? word := by
  have fits := Format.binary32.convert_lt source (by decide)
    (Format.binary32.word_lt (source.isNegative word) quiet) (source.datum word)
  rw [number?, toNat_ofNat fits]
  exact Format.number?_convert Format.binary32_proper rfl bits finer room _ number

end Binary32

namespace FloatKind

/-- A word of a narrow kind is loaded as the number that it stands for. -/
theorem number?_decode {kind : FloatKind} (narrow : kind = .f8 ∨ kind = .f16) (word : Nat) :
    (kind.decode word).number? = kind.format.number? word := by
  by_cases nan : kind.isNaN word = true
  · rw [Binary32.number?, Format.number?_of_isNaN nan]
    exact Format.number?_of_isNaN (kind.isNaN_decode nan)
  · rcases narrow with rfl | rfl
    · have finer : Format.float8.quantum = Format.binary32.quantum + (140 : Nat) := rfl
      exact Binary32.number?_ofNat_convert (by decide) finer (by decide) (by decide) nan
    · have finer : Format.binary16.quantum = Format.binary32.quantum + (125 : Nat) := rfl
      -- the payload of a NaN lies below the exponent
      have payload : word &&& 0x3FF = word % 2 ^ 10 := Nat.and_two_pow_sub_one_eq_mod word 10
      have quiet : 0x7F800000 + (word &&& 0x3FF) <<< 13 < Format.binary32.signBit := by
        rw [payload, Nat.shiftLeft_eq, show Format.binary32.signBit = 2 ^ 31 from by decide]
        omega
      exact Binary32.number?_ofNat_convert (by decide) finer (by decide) quiet nan

end FloatKind

end QuantLinear
