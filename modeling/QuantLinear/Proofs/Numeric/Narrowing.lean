import Mathlib.Tactic.NormNum
import QuantLinear.Proofs.Numeric.Value

/-!
How single precision words are stored in the narrow kinds.

Eight bits take each number as the nearest of their own and stop at the largest one
(`FloatKind.encode_f8_nearest`). Half precision does so as well, except for the magnitudes between
half of its smallest one and that one: it stores zero for them (`FloatKind.encode_f16_nearest`).
-/

namespace QuantLinear

namespace Format

variable {f : Format}

/-- The word nearest to a number past the last magnitude is the last one of its sign. -/
private theorem NearestTo.eq_last (proper : f.Proper) {negative : Bool} {code : Nat} {m : ℚ}
    (near : f.NearestTo (withSign negative m) (f.word negative code)) (fits : code ≤ f.lastCode)
    (beyond : f.magnitude f.lastCode ≤ m) : code = f.lastCode := by
  obtain ⟨y, shown, best⟩ := near
  rw [number?_word proper negative fits, Option.some.injEq] at shown
  have least := (best _ _ (number?_word proper negative le_rfl)).1
  have under := f.magnitude_strictMono.monotone fits
  rw [← shown, abs_withSign_sub, abs_withSign_sub, abs_of_nonpos (by linarith),
    abs_of_nonpos (by linarith)] at least
  exact f.magnitude_strictMono.injective (le_antisymm under (by linarith))

/-- A word that is no NaN keeps its sign. -/
theorem convert_datum (f : Format) (nan : Nat) {x : Binary32} (number : x.isNaN = false) :
    ∃ code ≤ f.topCode, f.convert .binary32 nan x.datum = f.word x.isNegative code :=
  ⟨_, f.carriedCode_le .binary32 x.code, f.convert_eq .binary32 nan number⟩

end Format

namespace Binary32

variable {x : Binary32}

theorem datum_of_topCode (top : x.code = Format.binary32.topCode) :
    x.datum = .infinite x.isNegative := by
  have code : Format.binary32.code x.toNat = Format.binary32.topCode := top
  have infinite : Format.binary32.topIsInfinite = true := rfl
  simp [datum, Format.datum, code, infinite, isNegative]

/-- Every word that is no NaN is infinite or stands for a number. -/
theorem infinite_or_number (number : x.isNaN = false) :
    x.code = Format.binary32.topCode ∨ ∃ v, x.number? = some v := by
  cases found : x.datum with
  | nan => exact absurd (Format.isNaN_of_datum found) (Bool.eq_false_iff.mp number)
  | infinite negative => exact .inl (Format.code_of_datum_infinite found).2
  | finite negative units => exact .inr ⟨_, number?_of_datum found⟩

end Binary32

namespace FloatKind

/-- Eight bits take a number as the nearest of their own, of two equally near ones the one with an
even code, and a magnitude from 448 on as 448. A NaN keeps its sign. -/
theorem encode_f8_nearest (x : Binary32) :
    (∀ word, (FloatKind.f8.decode word).number? = Format.float8.number? word) ∧
    (x.isNaN = true → FloatKind.f8.encode x = if x.isNegative then 0xFF else 0x7F) ∧
    (x.isNaN = false →
      (∃ code ≤ 0x7E, FloatKind.f8.encode x = Format.float8.word x.isNegative code) ∧
      (x.code = Format.binary32.topCode ∨
        ∃ v, x.number? = some v ∧ Format.float8.NearestTo v (FloatKind.f8.encode x)) ∧
      (x.Reaches 448 →
        (FloatKind.f8.decode (FloatKind.f8.encode x)).number? = some (withSign x.isNegative 448))) := by
  have decoded (word : Nat) : (FloatKind.f8.decode word).number? = Format.float8.number? word :=
    number?_decode (.inl rfl) word
  -- neither flushing nor infinity takes a number out of this format
  have nearest {v : ℚ} (shown : x.number? = some v) :
      Format.float8.NearestTo v (FloatKind.f8.encode x) := by
    obtain ⟨units, datum, -, rfl⟩ := Binary32.datum_of_number? shown
    rw [encode, datum]
    exact Format.nearestTo_convert Format.float8_proper _ (fun flushes => by cases flushes)
      fun infinite => by cases infinite
  have last : Format.float8.magnitude Format.float8.lastCode = 448 := by
    have units : Format.float8.units Format.float8.lastCode = 229376 := by decide
    rw [Format.magnitude, units]
    norm_num [Format.float8]
  refine ⟨decoded, fun nan => ?_, fun number => ⟨?_, ?_, ?_⟩⟩
  · have datum : x.datum = .nan := Format.datum_of_isNaN nan
    rw [encode, datum, Format.convert]
    cases x.isNegative <;> rfl
  · exact Format.float8.convert_datum _ number
  · rcases Binary32.infinite_or_number number with infinite | ⟨v, shown⟩
    · exact .inl infinite
    · exact .inr ⟨v, shown, nearest shown⟩
  · intro reaches
    obtain ⟨code, fits, stored⟩ := Format.float8.convert_datum
      (Format.float8.word x.isNegative 0x7F) number
    have saturated : code = Format.float8.lastCode := by
      rcases reaches with infinite | ⟨v, shown, large⟩
      · rw [Binary32.datum_of_topCode infinite, Format.convert] at stored
        exact (Nat.add_left_cancel stored).symm
      · have near := nearest shown
        obtain ⟨units, -, size, rfl⟩ := Binary32.datum_of_number? shown
        rw [size, ← last] at large
        rw [encode, stored] at near
        exact near.eq_last Format.float8_proper fits large
    rw [decoded, encode, stored, saturated, Format.number?_word Format.float8_proper _ le_rfl, last]

/-- One and a half of the smallest magnitude is stored as two of them, and -450 as -448. -/
theorem encode_f8_nearest_halfway :
    (Binary32.mk 0x3B400000).number? = some (3 / 2 ^ 10) ∧
    (Binary32.mk 0x3B400000).isNaN = false ∧
    Format.float8.NearestTo (3 / 2 ^ 10) 2 ∧
    (Binary32.mk 0xC3E10000).isNaN = false ∧ (Binary32.mk 0xC3E10000).Reaches 448 ∧
    (FloatKind.f8.decode 0xFE).number? = some (-448) := by
  have halfway : (Binary32.mk 0x3B400000).number? = some (3 / 2 ^ 10) := by
    have datum : (Binary32.mk 0x3B400000).datum = .finite false (3 * 2 ^ 139) := by decide +kernel
    rw [Binary32.number?_of_datum datum]
    norm_num [withSign, Format.binary32]
  have beyond : (Binary32.mk 0xC3E10000).number? = some (-450) := by
    have datum : (Binary32.mk 0xC3E10000).datum = .finite true (450 * 2 ^ 149) := by decide +kernel
    rw [Binary32.number?_of_datum datum]
    norm_num [withSign, Format.binary32]
  have reaches : (Binary32.mk 0xC3E10000).Reaches 448 := .inr ⟨_, beyond, by norm_num⟩
  have even : FloatKind.f8.encode ⟨0x3B400000⟩ = 2 := by decide +kernel
  have last : FloatKind.f8.encode ⟨0xC3E10000⟩ = 0xFE := by decide +kernel
  obtain ⟨-, -, finite⟩ := encode_f8_nearest ⟨0x3B400000⟩
  obtain ⟨-, -, large⟩ := encode_f8_nearest ⟨0xC3E10000⟩
  have saturated := (large (by decide)).2.2 reaches
  rw [last] at saturated
  refine ⟨halfway, by decide, ?_, by decide, reaches, ?_⟩
  · rcases (finite (by decide)).2.1 with infinite | ⟨v, shown, near⟩
    · exact absurd infinite (by decide)
    · rw [halfway, Option.some.injEq] at shown
      rwa [even, ← shown] at near
  · exact saturated

/-- Half precision takes a number as the nearest of its own, of two equally near ones the one with an
even code, and a magnitude from 65520 on as infinity. It misses the magnitudes between half of its
smallest one and that one, for which it stores zero. -/
theorem encode_f16_nearest (x : Binary32) (number : x.isNaN = false) :
    (∀ word, (FloatKind.f16.decode word).number? = Format.binary16.number? word) ∧
    (∃ code ≤ 0x7C00, FloatKind.f16.encode x = Format.binary16.word x.isNegative code) ∧
    (x.Reaches 65520 → FloatKind.f16.encode x = Format.binary16.word x.isNegative 0x7C00) ∧
    (x.Reaches 65520 ∨ ∃ v, x.number? = some v ∧ |v| < 65520 ∧
      if 2 ^ (-25 : ℤ) < |v| ∧ |v| < 2 ^ (-24 : ℤ)
      then FloatKind.f16.encode x = Format.binary16.word x.isNegative 0
      else Format.binary16.NearestTo v (FloatKind.f16.encode x)) := by
  have ends : Format.binary16.magnitude Format.binary16.lastCode +
      Format.binary16.magnitude Format.binary16.topCode = 2 * 65520 := by
    have last : Format.binary16.units Format.binary16.lastCode = 1098974756864 := by decide
    have top : Format.binary16.units Format.binary16.topCode = 1099511627776 := by decide
    rw [Format.magnitude, Format.magnitude, last, top]
    norm_num [Format.binary16]
  have quantum : Format.binary16.quantum = -24 := rfl
  refine ⟨fun word => number?_decode (.inr rfl) word, Format.binary16.convert_datum _ number, ?_, ?_⟩
  · rintro (infinite | ⟨v, shown, large⟩)
    · rw [encode, Binary32.datum_of_topCode infinite, Format.convert]
      rfl
    · obtain ⟨units, datum, size, rfl⟩ := Binary32.datum_of_number? shown
      rw [size] at large
      rw [encode, datum]
      exact Format.convert_of_beyond Format.binary16_proper rfl _ (by linarith)
  · rcases Binary32.infinite_or_number number with infinite | ⟨v, shown⟩
    · exact .inl (.inl infinite)
    · rcases le_or_gt 65520 |v| with large | inside
      · exact .inl (.inr ⟨v, shown, large⟩)
      · refine .inr ⟨v, shown, inside, ?_⟩
        obtain ⟨units, datum, size, rfl⟩ := Binary32.datum_of_number? shown
        rw [size] at inside ⊢
        rw [encode, datum]
        split
        · next gap => exact Format.convert_of_tiny rfl _ gap.2
        · next outside =>
          -- of the magnitudes below the smallest one the lower half is rounded down anyway
          refine Format.nearestTo_convert Format.binary16_proper _ (fun _ small => ?_)
            fun _ => by linarith
          rw [quantum] at small ⊢
          have half : (units : ℚ) * 2 ^ Format.binary32.quantum ≤ 2 ^ (-25 : ℤ) :=
            not_lt.mp fun above => outside ⟨above, small⟩
          have double : (2 : ℚ) ^ (-24 : ℤ) = 2 * 2 ^ (-25 : ℤ) := by norm_num
          linarith

/-- The smallest magnitude of half precision takes itself. -/
theorem encode_f16_nearest_smallest :
    (Binary32.mk 0x33800000).isNaN = false ∧ (Binary32.mk 0x33800000).number? = some (1 / 2 ^ 24) ∧
      Format.binary16.NearestTo (1 / 2 ^ 24) 1 := by
  have shown : (Binary32.mk 0x33800000).number? = some (1 / 2 ^ 24) := by
    have datum : (Binary32.mk 0x33800000).datum = .finite false (2 ^ 125) := by decide +kernel
    rw [Binary32.number?_of_datum datum]
    norm_num [withSign, Format.binary32]
  have stored : FloatKind.f16.encode ⟨0x33800000⟩ = 1 := by decide +kernel
  obtain ⟨-, -, -, outcome⟩ := encode_f16_nearest ⟨0x33800000⟩ (by decide)
  refine ⟨by decide, shown, ?_⟩
  rcases outcome with (infinite | ⟨v, value, large⟩) | ⟨v, value, -, nearest⟩
  · exact absurd infinite (by decide)
  · rw [shown, Option.some.injEq] at value
    norm_num [← value] at large
  · rw [shown, Option.some.injEq] at value
    rw [if_neg (by norm_num [← value])] at nearest
    rwa [stored, ← value] at nearest

/-- Three quarters of the smallest magnitude of half precision are nearer to it than to zero, and are
stored as zero. -/
theorem encode_f16_threeQuarters :
    (Binary32.mk 0x33400000).isNaN = false ∧
    (Binary32.mk 0x33400000).number? = some (3 / 2 ^ 26) ∧
    (2 : ℚ) ^ (-25 : ℤ) < 3 / 2 ^ 26 ∧ (3 / 2 ^ 26 : ℚ) < 2 ^ (-24 : ℤ) ∧
    Format.binary16.number? 1 = some (2 ^ (-24 : ℤ)) ∧
    FloatKind.f16.encode ⟨0x33400000⟩ = 0 ∧
    ¬Format.binary16.NearestTo (3 / 2 ^ 26) (FloatKind.f16.encode ⟨0x33400000⟩) := by
  have shown : (Binary32.mk 0x33400000).number? = some (3 / 2 ^ 26) := by
    have datum : (Binary32.mk 0x33400000).datum = .finite false (3 * 2 ^ 123) := by decide +kernel
    rw [Binary32.number?_of_datum datum]
    norm_num [withSign, Format.binary32]
  have smallest : Format.binary16.number? 1 = some (2 ^ (-24 : ℤ)) := by
    have datum : Format.binary16.datum 1 = .finite false 1 := by decide
    have quantum : Format.binary16.quantum = -24 := rfl
    simp [Format.number?, datum, withSign, quantum]
  have zero : Format.binary16.number? 0 = some 0 := by
    have datum : Format.binary16.datum 0 = .finite false 0 := by decide
    simp [Format.number?, datum, withSign]
  have stored : FloatKind.f16.encode ⟨0x33400000⟩ = 0 := by decide +kernel
  refine ⟨by decide, shown, by norm_num, by norm_num, smallest, stored, ?_⟩
  rintro ⟨y, value, best⟩
  rw [stored, zero, Option.some.injEq] at value
  have nearer := (best 1 _ smallest).1
  norm_num [← value, abs_of_pos, abs_of_neg] at nearer

end FloatKind

end QuantLinear
