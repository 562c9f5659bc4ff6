import QuantLinear.Proofs.Numeric.Value

/-!
Rounding keeps the order of numbers.

A larger number has no smaller preferred code: two codes can only be exchanged by rounding both numbers
on the way halfway between them, and then both codes are even and a code between them is nearer
(`Preferred.le`). So the code that a format stores grows with the magnitude, and with the sign in front
the stored numbers are in the order of the numbers (`withSign_le`).
-/

namespace QuantLinear

namespace Format

variable {f : Format}

/-- A larger number is not rounded to a smaller code. -/
theorem Preferred.le {x y : ℚ} {low high : Nat} (first : ∀ other, f.Preferred x low other)
    (second : ∀ other, f.Preferred y high other) (ordered : x ≤ y) : low ≤ high := by
  by_contra crossed
  have below : high < low := Nat.lt_of_not_le crossed
  have under := (first high).halfway_le below
  have beyond := (second low).le_halfway below
  -- both numbers lie halfway between the two codes, so that neither of them is the nearer one
  have middle : 2 * y = f.units high + f.units low := by linarith
  have same : x = y := by linarith
  have mirrored : (f.units high : ℚ) - y = -(f.units low - y) := by linarith
  have distance : |(f.units high : ℚ) - y| = |(f.units low : ℚ) - y| := by rw [mirrored, abs_neg]
  have evenHigh := ((second low).2 distance).resolve_left below.ne'
  have evenLow := ((first high).2 (by rw [same, distance])).resolve_left below.ne
  -- two even codes have one between them, and the way to it is shorter
  have between : high + 1 < low := by omega
  have nearer := (second (high + 1)).le_halfway (Nat.lt_succ_self high)
  have less : (f.units (high + 1) : ℚ) < f.units low := by exact_mod_cast f.units_strictMono between
  linarith

section Rounded

variable {num den otherNum otherDen code : Nat}

private theorem nearestCode_mono (fraction : 0 < f.fractionBits) (some : 0 < den)
    (otherSome : 0 < otherDen)
    (ordered : (num : ℚ) / den ≤ otherNum / otherDen) :
    f.nearestCode num den ≤ f.nearestCode otherNum otherDen :=
  Preferred.le (f.preferred_nearestCode fraction num some)
    (f.preferred_nearestCode fraction otherNum otherSome) ordered

/-- A format stores no smaller code for a larger magnitude, also where it flushes and where it ends. -/
theorem roundedCode_mono (fraction : 0 < f.fractionBits) (some : 0 < den) (otherSome : 0 < otherDen)
    (ordered : (num : ℚ) / den ≤ otherNum / otherDen) :
    f.roundedCode num den ≤ f.roundedCode otherNum otherDen := by
  rw [roundedCode, roundedCode]
  split
  · exact Nat.zero_le _
  · next kept =>
    split
    · next flushed =>
      -- what lies below one that is flushed would be flushed as well
      simp only [Bool.and_eq_true, decide_eq_true_eq] at flushed kept
      have small : (otherNum : ℚ) / otherDen < 1 := by
        rw [div_lt_one (Nat.cast_pos.mpr otherSome)]
        exact_mod_cast flushed.2
      have smaller : (num : ℚ) / den < 1 := lt_of_le_of_lt ordered small
      rw [div_lt_one (Nat.cast_pos.mpr some)] at smaller
      exact absurd ⟨flushed.1, by exact_mod_cast smaller⟩ kept
    · exact min_le_min_left _ (nearestCode_mono fraction some otherSome ordered)

theorem roundedCode_le_nearestCode (f : Format) (num den : Nat) :
    f.roundedCode num den ≤ f.nearestCode num den := by
  rw [roundedCode]
  split
  · exact Nat.zero_le _
  · exact Nat.min_le_right ..

/-- A magnitude not below that of a code is stored in a code not below it. -/
theorem le_roundedCode (fraction : 0 < f.fractionBits) (some : 0 < den) (fits : code ≤ f.topCode)
    (reached : (f.units code : ℚ) ≤ num / den) : code ≤ f.roundedCode num den := by
  have grown : f.roundedCode (f.units code) 1 ≤ f.roundedCode num den :=
    f.roundedCode_mono fraction Nat.one_pos some (by simpa using reached)
  rwa [f.roundedCode_units fits] at grown

/-- A magnitude not above that of a code is stored in a code not above it. -/
theorem roundedCode_le_code (fraction : 0 < f.fractionBits) (some : 0 < den) (fits : code ≤ f.topCode)
    (under : (num : ℚ) / den ≤ f.units code) : f.roundedCode num den ≤ code := by
  have grown : f.roundedCode num den ≤ f.roundedCode (f.units code) 1 :=
    f.roundedCode_mono fraction some Nat.one_pos (by simpa using under)
  rwa [f.roundedCode_units fits] at grown

/-- Rounding moves a quotient by no more than half a unit or half of the last place that it keeps. -/
theorem near_nearestCode (fraction : 0 < f.fractionBits) (some : 0 < den) :
    2 * |(f.units (f.nearestCode num den) : ℚ) - num / den| ≤
      max 1 ((num : ℚ) / den / 2 ^ f.fractionBits) := by
  obtain ⟨shift, m, split, rounded, upper, lower⟩ := f.nearestCode_steps num den
  have steps := f.units_steps (lower.imp_right And.left) upper
  rw [← split] at steps
  have near := (f.near_of_steps fraction some split rounded steps).1
  apply near.trans
  rcases lower with zero | ⟨-, leading⟩
  · rw [zero, pow_zero]
    exact le_max_left _ _
  · apply le_max_of_le_right
    rw [le_div_iff₀ (by positivity)]
    have cast : ((2 ^ f.fractionBits * 2 ^ shift : Nat) : ℚ) ≤ (num / den : Nat) := by
      exact_mod_cast leading
    push_cast at cast
    rw [mul_comm]
    exact cast.trans Nat.cast_div_le

end Rounded

/-- The code in which a format stores the magnitude of a single precision code. -/
def narrowedCode (f : Format) (code : Nat) : Nat :=
  f.convertedCode .binary32 (binary32.units code)

theorem convertedCode_mono (fraction : 0 < f.fractionBits) (source : Format) :
    Monotone (f.convertedCode source) := by
  intro low high ordered
  obtain ⟨num, den, some, code, value⟩ := f.convertedCode_eq source low
  obtain ⟨otherNum, otherDen, otherSome, otherCode, otherValue⟩ := f.convertedCode_eq source high
  rw [code, otherCode]
  apply roundedCode_mono fraction some otherSome
  rw [← mul_le_mul_iff_left₀ f.quantum_pos, value, otherValue,
    mul_le_mul_iff_left₀ source.quantum_pos]
  exact_mod_cast ordered

theorem narrowedCode_mono (fraction : 0 < f.fractionBits) : Monotone f.narrowedCode :=
  (convertedCode_mono fraction .binary32).comp binary32.units_strictMono.monotone

@[simp] theorem narrowedCode_zero (f : Format) : f.narrowedCode 0 = 0 := by simp [narrowedCode]

theorem narrowedCode_le (f : Format) (code : Nat) : f.narrowedCode code ≤ f.topCode :=
  f.convertedCode_le ..

end Format

/-- A growing function of the magnitudes that keeps zero keeps the order of the numbers with their
signs. -/
theorem withSign_le {f g : Format} {stored : Nat → Nat} (mono : Monotone stored)
    (zero : stored 0 = 0) {s t : Bool} {a b : Nat}
    (ordered : withSign s (f.magnitude a) ≤ withSign t (f.magnitude b)) :
    withSign s (g.magnitude (stored a)) ≤ withSign t (g.magnitude (stored b)) := by
  have grows {c d : Nat} (le : f.magnitude c ≤ f.magnitude d) :
      g.magnitude (stored c) ≤ g.magnitude (stored d) :=
    g.magnitude_strictMono.monotone (mono (f.magnitude_strictMono.le_iff_le.mp le))
  have first := g.magnitude_nonneg (stored a)
  have second := g.magnitude_nonneg (stored b)
  cases s <;> cases t <;> simp only [withSign, Bool.false_eq_true, if_true, if_false] at ordered ⊢
  · exact grows ordered
  · -- a positive number is below a negative one only where both are zero
    have none : f.magnitude 0 = 0 := by simp [Format.magnitude]
    have upper := f.magnitude_nonneg a
    have lower := f.magnitude_nonneg b
    have left := grows (show f.magnitude a ≤ f.magnitude 0 by linarith)
    have right := grows (show f.magnitude b ≤ f.magnitude 0 by linarith)
    have nothing : g.magnitude (stored 0) = 0 := by simp [zero, Format.magnitude]
    linarith
  · linarith
  · exact neg_le_neg (grows (neg_le_neg_iff.mp ordered))

end QuantLinear
