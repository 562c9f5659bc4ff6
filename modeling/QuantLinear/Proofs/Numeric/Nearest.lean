import QuantLinear.Proofs.Numeric.Rounding
import Mathlib.Algebra.Order.Ring.Unbundled.Rat
import Mathlib.Data.Nat.Cast.Order.Field
import Mathlib.Order.Monotone.Basic
import Mathlib.Tactic.Linarith
import Mathlib.Tactic.Ring

/-!
Codes nearest to a number.

The units of the codes grow with the codes, in steps that double from binade to binade. Of all codes
the one that a quotient is rounded to is the nearest, and an even one where another is as near
(`preferred_nearestCode`). A format with a last code keeps to this as far as its codes go
(`preferred_roundedCode`).
-/

namespace QuantLinear

theorem divNearestEven_bounds (num den : Nat) :
    num / den ≤ divNearestEven num den ∧ divNearestEven num den ≤ num / den + 1 := by
  simp only [divNearestEven]
  split
  · omega
  · split <;> omega

/-- The nearest integer is no more than one half away, and even where it is just that. -/
private theorem divNearestEven_near (num : Nat) {den : Nat} (some : 0 < den) :
    2 * |(divNearestEven num den : ℚ) - num / den| ≤ 1 ∧
      (2 * |(divNearestEven num den : ℚ) - num / den| = 1 → divNearestEven num den % 2 = 0) := by
  have positive : (0 : ℚ) < den := Nat.cast_pos.mpr some
  have whole : (num : ℚ) = den * (num / den : Nat) + (num % den : Nat) := by
    exact_mod_cast (Nat.div_add_mod num den).symm
  have value : (num : ℚ) / den = (num / den : Nat) + (num % den : Nat) / den := by
    conv_lhs => rw [whole]
    rw [add_div, mul_div_cancel_left₀ _ positive.ne']
  have rest : (0 : ℚ) ≤ (num % den : Nat) / den := by positivity
  rw [value, divNearestEven]
  -- the three cases say on which side of one half the rest of the division lies
  split
  · next low =>
    have below : ((num % den : Nat) : ℚ) / den < 1 / 2 := by
      rw [div_lt_iff₀ positive]
      have cast : (2 : ℚ) * (num % den : Nat) < den := by exact_mod_cast low
      linarith
    rw [sub_add_cancel_left, abs_neg, abs_of_nonneg rest]
    exact ⟨by linarith, fun tie => absurd tie (by linarith)⟩
  · split
    · next high =>
      have above : 1 / 2 < ((num % den : Nat) : ℚ) / den := by
        rw [lt_div_iff₀ positive]
        have cast : (den : ℚ) < 2 * (num % den : Nat) := by exact_mod_cast high
        linarith
      have proper : ((num % den : Nat) : ℚ) / den ≤ 1 := by
        rw [div_le_one₀ positive]
        exact_mod_cast (Nat.mod_lt num some).le
      push_cast
      rw [add_sub_add_left_eq_sub, abs_of_nonneg (by linarith)]
      exact ⟨by linarith, fun tie => absurd tie (by linarith)⟩
    · next low high =>
      have half : ((num % den : Nat) : ℚ) / den = 1 / 2 := by
        rw [div_eq_iff positive.ne']
        have cast : (2 : ℚ) * (num % den : Nat) = den := by
          exact_mod_cast Nat.le_antisymm (Nat.not_lt.mp high) (Nat.not_lt.mp low)
        linarith
      have even : (num / den + num / den % 2) % 2 = 0 := by omega
      rw [half]
      push_cast
      rw [add_sub_add_left_eq_sub]
      refine ⟨?_, fun _ => even⟩
      rcases Nat.mod_two_eq_zero_or_one (num / den) with zero | one
      · rw [zero]
        norm_num
      · rw [one]
        norm_num

namespace Format

variable (f : Format)

/-- Within a binade the units go in equal steps, its upper end included. -/
theorem units_steps {shift m : Nat} (lower : shift = 0 ∨ 2 ^ f.fractionBits ≤ m)
    (upper : m ≤ 2 * 2 ^ f.fractionBits) :
    f.units (shift * 2 ^ f.fractionBits + m) = m * 2 ^ shift := by
  have some : 0 < 2 ^ f.fractionBits := Nat.two_pow_pos _
  rcases Nat.lt_or_ge m (2 ^ f.fractionBits) with first | later
  · have zero : shift = 0 := lower.resolve_right (Nat.not_le.mpr first)
    rw [zero, Nat.zero_mul, Nat.zero_add, f.units_of_lt first, Nat.pow_zero, Nat.mul_one]
  · obtain ⟨fraction, rfl⟩ := Nat.exists_eq_add_of_le later
    have split : shift * 2 ^ f.fractionBits + (2 ^ f.fractionBits + fraction) =
        fraction + 2 ^ f.fractionBits * (shift + 1) := by ring
    have above : 2 ^ f.fractionBits ≤ shift * 2 ^ f.fractionBits + (2 ^ f.fractionBits + fraction) := by
      omega
    rw [f.units_of_le above, split, Nat.add_mul_mod_self_left, Nat.add_mul_div_left _ _ some]
    rcases Nat.lt_or_ge fraction (2 ^ f.fractionBits) with inside | reached
    · rw [Nat.mod_eq_of_lt inside, Nat.div_eq_of_lt inside, Nat.zero_add, Nat.add_sub_cancel]
    · -- the upper end is the first code of the next binade
      have last : fraction = 2 ^ f.fractionBits := by omega
      rw [last, Nat.mod_self, Nat.div_self some, Nat.add_sub_cancel_left]
      ring

/-- The next code is at least one step of the binade further. -/
private theorem units_add_step_le {shift m : Nat} (lower : shift = 0 ∨ 2 ^ f.fractionBits ≤ m)
    (upper : m ≤ 2 * 2 ^ f.fractionBits) :
    f.units (shift * 2 ^ f.fractionBits + m) + 2 ^ shift ≤
      f.units (shift * 2 ^ f.fractionBits + m + 1) := by
  have some : 0 < 2 ^ f.fractionBits := Nat.two_pow_pos _
  rw [f.units_steps lower upper]
  rcases Nat.lt_or_eq_of_le upper with inside | last
  · rw [Nat.add_assoc, f.units_steps (lower.imp_right fun le => le.trans (Nat.le_succ _)) inside,
      Nat.succ_mul]
  · -- past the upper end the steps are twice as wide
    have next : shift * 2 ^ f.fractionBits + m + 1 =
        (shift + 1) * 2 ^ f.fractionBits + (2 ^ f.fractionBits + 1) := by
      rw [last]
      ring
    rw [next, f.units_steps (.inr (Nat.le_succ _)) (by omega), last, Nat.pow_succ]
    have wide : 0 < 2 ^ shift := Nat.two_pow_pos _
    linarith

/-- Each code lies in a binade. -/
theorem exists_steps (code : Nat) : ∃ shift m, code = shift * 2 ^ f.fractionBits + m ∧
    (shift = 0 ∨ 2 ^ f.fractionBits ≤ m) ∧ m < 2 * 2 ^ f.fractionBits := by
  have split := Nat.div_add_mod' code (2 ^ f.fractionBits)
  have rest : code % 2 ^ f.fractionBits < 2 ^ f.fractionBits := Nat.mod_lt _ (Nat.two_pow_pos _)
  cases binade : code / 2 ^ f.fractionBits with
  | zero =>
    rw [binade, Nat.zero_mul, Nat.zero_add] at split
    exact ⟨0, code, by simp, .inl rfl, by omega⟩
  | succ shift =>
    rw [binade, Nat.succ_mul] at split
    exact ⟨shift, 2 ^ f.fractionBits + code % 2 ^ f.fractionBits, by omega, .inr (by omega), by omega⟩

/-- Larger codes count more units. -/
theorem units_strictMono : StrictMono f.units := by
  apply strictMono_nat_of_lt_succ
  intro code
  obtain ⟨shift, m, rfl, lower, upper⟩ := f.exists_steps code
  exact Nat.lt_of_lt_of_le (Nat.lt_add_of_pos_right (Nat.two_pow_pos _))
    (f.units_add_step_le lower upper.le)

/-- Whether `x` units are rounded to a code rather than to another one: the code is nearer, or as near
and even. -/
def Preferred (x : ℚ) (code other : Nat) : Prop :=
  |(f.units code : ℚ) - x| ≤ |(f.units other : ℚ) - x| ∧
    (|(f.units code : ℚ) - x| = |(f.units other : ℚ) - x| → other = code ∨ code % 2 = 0)

end Format

/-- What is no more than half a distance away is nearer than what is the whole distance further on. -/
private theorem nearer_of_apart {u v x step : ℚ} (near : 2 * |u - x| ≤ step) (apart : step ≤ |v - u|) :
    |u - x| ≤ |v - x| ∧ (|u - x| = |v - x| → 2 * |u - x| = step) := by
  have triangle : |v - u| ≤ |v - x| + |u - x| := by
    have bound := abs_sub_le v x u
    rwa [abs_sub_comm x u] at bound
  exact ⟨by linarith, fun tie => by linarith⟩

namespace Format

variable (f : Format)

/-- The binade in which a quotient is rounded, and its place there. -/
theorem nearestCode_steps (num den : Nat) :
    ∃ shift m, f.nearestCode num den = shift * 2 ^ f.fractionBits + m ∧
      m = divNearestEven num (den * 2 ^ shift) ∧ m ≤ 2 * 2 ^ f.fractionBits ∧
      (shift = 0 ∨ 2 ^ f.fractionBits ≤ m ∧ 2 ^ f.fractionBits * 2 ^ shift ≤ num / den) := by
  refine ⟨(num / den).log2 - f.fractionBits, _, ?_, rfl, ?_, ?_⟩
  · simp only [nearestCode, Nat.shiftLeft_eq]
  all_goals
    obtain ⟨shift, shift_eq⟩ : ∃ shift, shift = (num / den).log2 - f.fractionBits := ⟨_, rfl⟩
    have bounds := divNearestEven_bounds num (den * 2 ^ shift)
    rw [← Nat.div_div_eq_div_mul] at bounds
    rw [← shift_eq]
  · -- the quotient has at most one bit more than a fraction, once it is shifted
    have bits : num / den < 2 ^ (f.fractionBits + 1 + shift) :=
      Nat.lt_of_lt_of_le Nat.lt_log2_self (Nat.pow_le_pow_right (by decide) (by omega))
    have below : num / den / 2 ^ shift < 2 ^ (f.fractionBits + 1) := by
      rw [Nat.div_lt_iff_lt_mul (Nat.two_pow_pos _), ← Nat.pow_add]
      exact bits
    rw [Nat.pow_succ] at below
    omega
  · rcases Nat.eq_zero_or_pos shift with zero | positive
    · exact .inl zero
    · right
      have large : num / den ≠ 0 := by
        intro zero
        rw [zero] at shift_eq
        simp [shift_eq] at positive
      have leading : 2 ^ (f.fractionBits + shift) ≤ num / den := by
        have exponent : f.fractionBits + shift = (num / den).log2 := by omega
        rw [exponent]
        exact Nat.log2_self_le large
      rw [Nat.pow_add] at leading
      exact ⟨((Nat.le_div_iff_mul_le (Nat.two_pow_pos _)).mpr leading).trans bounds.1, leading⟩

/-- In the steps of its binade a rounded quotient is no more than half a step away. -/
theorem near_of_steps (fraction : 0 < f.fractionBits) {num den code shift m : Nat} (some : 0 < den)
    (split : code = shift * 2 ^ f.fractionBits + m)
    (rounded : m = divNearestEven num (den * 2 ^ shift)) (steps : f.units code = m * 2 ^ shift) :
    2 * |(f.units code : ℚ) - num / den| ≤ 2 ^ shift ∧
      (2 * |(f.units code : ℚ) - num / den| = 2 ^ shift → code % 2 = 0) := by
  have near := divNearestEven_near num (Nat.mul_pos some (Nat.two_pow_pos shift))
  rw [← rounded] at near
  have wide : (0 : ℚ) < 2 ^ shift := by positivity
  have distance : |(f.units code : ℚ) - num / den| =
      |(m : ℚ) - num / (den * 2 ^ shift : Nat)| * 2 ^ shift := by
    have scaled : (f.units code : ℚ) - num / den =
        ((m : ℚ) - num / (den * 2 ^ shift : Nat)) * 2 ^ shift := by
      rw [sub_mul, steps]
      push_cast
      rw [div_mul_eq_mul_div, mul_div_mul_right _ _ wide.ne']
    rw [scaled, abs_mul, abs_of_pos wide]
  have parity : code % 2 = m % 2 := by
    have even : shift * 2 ^ f.fractionBits % 2 = 0 := by
      rw [Nat.mul_mod, Nat.pow_mod, Nat.mod_self, Nat.zero_pow fraction]
      simp
    omega
  rw [distance, ← mul_assoc, parity]
  refine ⟨mul_le_of_le_one_left wide.le near.1, fun tie => near.2 ?_⟩
  exact mul_right_cancel₀ wide.ne' (tie.trans (one_mul _).symm)

/-- Of all codes a quotient is rounded to the preferred one. -/
theorem preferred_nearestCode (fraction : 0 < f.fractionBits) (num : Nat) {den : Nat}
    (some : 0 < den) (other : Nat) : f.Preferred (num / den) (f.nearestCode num den) other := by
  obtain ⟨shift, m, code, rounded, upper, lower⟩ := f.nearestCode_steps num den
  have steps := f.units_steps (lower.imp_right And.left) upper
  rw [← code] at steps
  have near := f.near_of_steps fraction some code rounded steps
  -- a code a whole step further on is as near only on the way halfway between the two
  have prefer (apart : (2 : ℚ) ^ shift ≤ |(f.units other : ℚ) - f.units (f.nearestCode num den)|) :
      f.Preferred (num / den) (f.nearestCode num den) other :=
    have nearer := nearer_of_apart near.1 apart
    ⟨nearer.1, fun tie => .inr (near.2 (nearer.2 tie))⟩
  rcases Nat.lt_trichotomy other (f.nearestCode num den) with below | same | above
  · by_cases inside : shift = 0 ∨ 2 ^ f.fractionBits < m
    · -- the code before it lies in the same binade
      obtain ⟨before, rfl⟩ : ∃ before, m = before + 1 :=
        Nat.exists_eq_succ_of_ne_zero (by
          rintro rfl
          rcases inside with zero | none
          · simp [code, zero] at below
          · exact absurd none (Nat.not_lt_zero _))
      have step := f.units_add_step_le (inside.imp_right Nat.le_of_lt_succ) (by omega : before ≤ _)
      have under : f.units other ≤ f.units (shift * 2 ^ f.fractionBits + before) :=
        f.units_strictMono.monotone (by omega)
      rw [Nat.add_assoc, ← code] at step
      have apart : f.units other + 2 ^ shift ≤ f.units (f.nearestCode num den) := by omega
      have cast : (f.units other : ℚ) + 2 ^ shift ≤ f.units (f.nearestCode num den) := by
        exact_mod_cast apart
      apply prefer
      rw [abs_sub_comm]
      exact le_trans (by linarith) (le_abs_self _)
    · -- it starts its binade, and the quotient is not below it
      obtain ⟨many, narrow⟩ := not_or.mp inside
      obtain ⟨atLeast, leading⟩ := lower.resolve_left many
      have start : m = 2 ^ f.fractionBits := Nat.le_antisymm (Nat.not_lt.mp narrow) atLeast
      rw [← start, ← steps] at leading
      have reached : (f.units (f.nearestCode num den) : ℚ) ≤ num / den :=
        le_trans (by exact_mod_cast leading) Nat.cast_div_le
      have less : (f.units other : ℚ) < f.units (f.nearestCode num den) := by
        exact_mod_cast f.units_strictMono below
      rw [Preferred, abs_sub_comm, abs_sub_comm (f.units other : ℚ),
        abs_of_nonneg (sub_nonneg.mpr reached), abs_of_nonneg (by linarith)]
      exact ⟨by linarith, fun tie => absurd tie (by linarith)⟩
  · rw [same]
    exact ⟨le_rfl, fun _ => .inl rfl⟩
  · have step := f.units_add_step_le (lower.imp_right And.left) upper
    rw [← code] at step
    have reached : f.units (f.nearestCode num den + 1) ≤ f.units other :=
      f.units_strictMono.monotone above
    have cast : (f.units (f.nearestCode num den) : ℚ) + 2 ^ shift ≤ f.units other := by
      exact_mod_cast step.trans reached
    apply prefer
    exact le_trans (by linarith) (le_abs_self _)

section Halfway

variable {f} {x : ℚ} {code other : Nat}

/-- A number is at least halfway up from each code below its preferred one. -/
theorem Preferred.halfway_le (prefer : f.Preferred x code other) (below : other < code) :
    (f.units other : ℚ) + f.units code ≤ 2 * x := by
  have less : (f.units other : ℚ) < f.units code := by exact_mod_cast f.units_strictMono below
  have near := prefer.1
  by_contra lower
  -- below the middle the distance to the upper code is the larger one
  rw [abs_of_nonneg (by linarith)] at near
  rcases abs_cases ((f.units other : ℚ) - x) with ⟨distance, _⟩ | ⟨distance, _⟩ <;> linarith

/-- A number is at most halfway up to each code above its preferred one. -/
theorem Preferred.le_halfway (prefer : f.Preferred x code other) (above : code < other) :
    2 * x ≤ f.units code + f.units other := by
  have less : (f.units code : ℚ) < f.units other := by exact_mod_cast f.units_strictMono above
  have near := prefer.1
  by_contra higher
  rw [abs_of_nonpos (by linarith)] at near
  rcases abs_cases ((f.units other : ℚ) - x) with ⟨distance, _⟩ | ⟨distance, _⟩ <;> linarith

end Halfway

/-- The largest code of a finite magnitude. -/
def lastCode : Nat := if f.topIsInfinite then f.topCode - 1 else f.topCode

/-- A format with fractions whose codes lie below the sign. The code of infinity is even, so that a
magnitude halfway to it becomes infinite. -/
structure Proper : Prop where
  fraction : 0 < f.fractionBits
  top_lt : f.topCode < f.signBit
  top_even : f.topIsInfinite = true → 0 < f.topCode ∧ f.topCode % 2 = 0

theorem lastCode_le : f.lastCode ≤ f.topCode := by
  rw [lastCode]
  split
  · exact Nat.sub_le _ _
  · exact Nat.le_refl _

/-- Flushing makes no difference outside the upper half of the first unit. -/
private theorem roundedCode_eq_min {num den : Nat}
    (kept : f.flushesTiny = true → num < den → 2 * num ≤ den) :
    f.roundedCode num den = min f.topCode (f.nearestCode num den) := by
  rw [roundedCode]
  split
  · next flushed =>
    simp only [Bool.and_eq_true, decide_eq_true_eq] at flushed
    -- the lower half of the first unit, its middle included, is rounded to zero
    have half := kept flushed.1 flushed.2
    have none : num / den = 0 := Nat.div_eq_of_lt flushed.2
    have zero : divNearestEven num den = 0 := by
      simp only [divNearestEven, none, Nat.mod_eq_of_lt flushed.2]
      split
      · rfl
      · rw [if_neg (Nat.not_lt.mpr half)]
    simp [nearestCode, none, zero]
  · rfl

/-- A magnitude within the reach of a format is rounded to the preferred one of its finite codes. -/
theorem preferred_roundedCode (proper : f.Proper) {num den : Nat} (some : 0 < den)
    (kept : f.flushesTiny = true → num < den → 2 * num ≤ den)
    (reach : f.topIsInfinite = true →
      2 * ((num : ℚ) / den) < f.units f.lastCode + f.units f.topCode) :
    f.roundedCode num den ≤ f.lastCode ∧
      ∀ other ≤ f.lastCode, f.Preferred (num / den) (f.roundedCode num den) other := by
  have prefer := f.preferred_nearestCode proper.fraction num some
  rw [f.roundedCode_eq_min kept]
  rcases Nat.lt_or_ge f.lastCode (f.nearestCode num den) with past | within
  · have halfway := (prefer f.lastCode).halfway_le past
    have less : (f.units f.lastCode : ℚ) < f.units (f.nearestCode num den) := by
      exact_mod_cast f.units_strictMono past
    cases infinite : f.topIsInfinite with
    | true =>
      have after : f.topCode ≤ f.nearestCode num den := by
        rw [lastCode, if_pos infinite] at past
        omega
      have more : (f.units f.topCode : ℚ) ≤ f.units (f.nearestCode num den) := by
        exact_mod_cast f.units_strictMono.monotone after
      exact absurd (reach infinite) (by linarith)
    | false =>
      -- a format without infinity stays at its last code, from which all others are further away
      have last : f.topCode = f.lastCode := by simp [lastCode, infinite]
      rw [last, Nat.min_eq_left past.le]
      refine ⟨Nat.le_refl _, fun other inside => ?_⟩
      have up : (f.units other : ℚ) ≤ f.units f.lastCode := by
        exact_mod_cast f.units_strictMono.monotone inside
      rw [Preferred, abs_of_nonpos (by linarith), abs_of_nonpos (by linarith)]
      refine ⟨by linarith, fun tie => .inl ?_⟩
      have same : (f.units other : ℚ) = f.units f.lastCode := by linarith
      exact f.units_strictMono.injective (by exact_mod_cast same)
  · rw [Nat.min_eq_right (within.trans f.lastCode_le)]
    exact ⟨within, fun other _ => prefer other⟩

/-- A magnitude out of the reach of a format with infinity becomes infinite. -/
theorem roundedCode_of_beyond (proper : f.Proper) (infinite : f.topIsInfinite = true)
    {num den : Nat} (some : 0 < den)
    (beyond : (f.units f.lastCode : ℚ) + f.units f.topCode ≤ 2 * (num / den)) :
    f.roundedCode num den = f.topCode := by
  obtain ⟨positive, even⟩ := proper.top_even infinite
  have last : f.lastCode + 1 = f.topCode := by
    rw [lastCode, if_pos infinite]
    omega
  have step : (f.units f.lastCode : ℚ) < f.units f.topCode := by
    exact_mod_cast f.units_strictMono (by omega)
  have large : ¬num < den := by
    intro small
    have less : (num : ℚ) / den < 1 := by
      rw [div_lt_one (Nat.cast_pos.mpr some)]
      exact_mod_cast small
    have one : (1 : ℚ) ≤ f.units f.lastCode := by
      exact_mod_cast f.units_pos (by omega)
    linarith
  rw [f.roundedCode_eq_min fun _ small => absurd small large]
  apply Nat.min_eq_left
  by_contra short
  have under : f.nearestCode num den ≤ f.lastCode := by omega
  have low : (f.units (f.nearestCode num den) : ℚ) ≤ f.units f.lastCode := by
    exact_mod_cast f.units_strictMono.monotone under
  have prefer := f.preferred_nearestCode proper.fraction num some f.topCode
  have halfway := prefer.le_halfway (by omega)
  have same : (f.units (f.nearestCode num den) : ℚ) = f.units f.lastCode := by linarith
  have code : f.nearestCode num den = f.lastCode :=
    f.units_strictMono.injective (by exact_mod_cast same)
  -- the quotient is halfway between the last two codes, and the even one is that of infinity
  have mirrored : (f.units (f.nearestCode num den) : ℚ) - num / den =
      -(f.units f.topCode - num / den) := by linarith
  rcases prefer.2 (by rw [mirrored, abs_neg]) with top | odd <;> omega

end Format

end QuantLinear
