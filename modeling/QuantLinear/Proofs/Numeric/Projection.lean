import Mathlib.Data.EReal.Operations
import QuantLinear.Proofs.Numeric.Carried

/-!
Storing a double precision number in a narrower kind, as a projection.

A number that is stored and loaded again keeps its sign, and its code goes through two or three formats.
Each of these steps grows with the code and keeps zero, so the outcomes are in the order of the numbers,
and a number of the other sign comes out with the other sign. What comes out is a number of the kind, and
storing it once more changes none of its bits (`FloatKind.stored_projects`).
-/

namespace QuantLinear

namespace Format

/-- The extended real number that a word stands for. A NaN stands for none and counts as zero. -/
noncomputable def extended (f : Format) (word : Nat) : EReal :=
  match f.datum word with
  | .nan => 0
  | .infinite negative => if negative then ⊥ else ⊤
  | .finite negative units => ((withSign negative (units * 2 ^ f.quantum) : ℚ) : ℝ)

/-- The word of the other sign. -/
def negated (f : Format) (word : Nat) : Nat := f.word (!f.isNegative word) (f.code word)

/-- The magnitude of a code with infinity at its end. -/
noncomputable def reach (f : Format) (code : Nat) : EReal :=
  if f.topIsInfinite && code == f.topCode then ⊤ else ((f.magnitude code : ℚ) : ℝ)

variable {f : Format} {low high code : Nat}

private theorem reach_nonneg (f : Format) (code : Nat) : 0 ≤ f.reach code := by
  rw [reach]
  split
  · exact le_top
  · exact EReal.coe_nonneg.mpr (Rat.cast_nonneg.mpr (f.magnitude_nonneg code))

private theorem reach_lt (less : low < high) (fits : high ≤ f.topCode) :
    f.reach low < f.reach high := by
  have below : ¬(f.topIsInfinite && low == f.topCode) = true := by
    simp only [Bool.and_eq_true, beq_iff_eq, not_and]
    omega
  rw [reach, if_neg below, reach]
  split
  · exact EReal.coe_lt_top _
  · exact EReal.coe_lt_coe_iff.mpr (Rat.cast_lt.mpr (f.magnitude_strictMono less))

/-- The codes up to the top one are in the order of what they reach. -/
private theorem reach_le_iff (first : low ≤ f.topCode) (second : high ≤ f.topCode) :
    f.reach low ≤ f.reach high ↔ low ≤ high := by
  -- strictly growing, so the order of the codes decides
  rcases lt_trichotomy low high with less | same | more
  · exact iff_of_true (reach_lt less second).le less.le
  · rw [same]
    exact iff_of_true le_rfl le_rfl
  · exact iff_of_false (reach_lt more first).not_ge more.not_ge

private theorem reach_zero (proper : f.Proper) : f.reach 0 = 0 := by
  rw [reach, if_neg, magnitude, units_zero]
  · simp
  · intro top
    simp only [Bool.and_eq_true, beq_iff_eq] at top
    exact absurd (proper.top_even top.1).1 (by omega)

private theorem extended_word (proper : f.Proper) (negative : Bool) (fits : code ≤ f.topCode) :
    f.extended (f.word negative code) = if negative then -f.reach code else f.reach code := by
  have small := Nat.lt_of_le_of_lt fits proper.top_lt
  rw [extended, datum, reach, f.code_word negative small, f.isNegative_word negative small]
  simp only [if_neg (Nat.not_lt.mpr fits)]
  by_cases top : (f.topIsInfinite && code == f.topCode) = true
  · simp only [top, if_true, EReal.neg_top]
  · simp only [top, withSign, magnitude]
    cases negative <;> simp

/-- Words that are no NaNs are in the order of their codes, counted downwards below zero. -/
private theorem extended_word_le_iff (proper : f.Proper) {s t : Bool} (first : low ≤ f.topCode)
    (second : high ≤ f.topCode) : f.extended (f.word s low) ≤ f.extended (f.word t high) ↔
      Binary32.signed s low ≤ Binary32.signed t high := by
  have zero := reach_zero proper
  have lower := f.reach_nonneg low
  have upper := f.reach_nonneg high
  rw [extended_word proper s first, extended_word proper t second, Binary32.signed, Binary32.signed]
  cases s <;> cases t <;> simp only [Bool.false_eq_true, if_true, if_false]
  · rw [reach_le_iff first second, Int.ofNat_le]
  · -- a positive number is below a negative one only where both are zero
    constructor
    · intro ordered
      have none : f.reach low ≤ f.reach 0 := by
        rw [zero]
        exact ordered.trans (EReal.neg_le_zero.mpr upper)
      have nothing : f.reach high ≤ f.reach 0 := by
        rw [zero]
        exact EReal.neg_nonneg.mp (lower.trans ordered)
      rw [reach_le_iff first (Nat.zero_le _)] at none
      rw [reach_le_iff second (Nat.zero_le _)] at nothing
      omega
    · intro ordered
      obtain ⟨rfl, rfl⟩ : low = 0 ∧ high = 0 := by omega
      rw [zero, neg_zero]
  · exact iff_of_true ((EReal.neg_le_zero.mpr lower).trans upper) (by omega)
  · rw [EReal.neg_le_neg_iff, reach_le_iff second first]
    omega

end Format

/-- A growing function of the codes that keeps zero keeps the order of the codes with their signs. -/
private theorem Binary32.signed_le {stored : Nat → Nat} {top low high : Nat} {s t : Bool}
    (mono : ∀ a b, a ≤ b → b ≤ top → stored a ≤ stored b) (zero : stored 0 = 0)
    (first : low ≤ top) (second : high ≤ top) (ordered : signed s low ≤ signed t high) :
    signed s (stored low) ≤ signed t (stored high) := by
  cases s <;> cases t <;> simp only [signed, Bool.false_eq_true, if_true, if_false] at ordered ⊢
  · exact Int.ofNat_le.mpr (mono _ _ (by omega) second)
  · obtain ⟨rfl, rfl⟩ : low = 0 ∧ high = 0 := by omega
    simp [zero]
  · omega
  · have grown := mono high low (by omega) first
    omega

/-- The extended real number that a single precision word stands for. -/
noncomputable def Binary32.extended (x : Binary32) : EReal := Format.binary32.extended x.toNat

/-- The extended real number that a double precision word stands for. -/
noncomputable def Binary64.extended (x : Binary64) : EReal := Format.binary64.extended x.toNat

/-- The single precision word with the other sign. -/
def Binary32.negated (x : Binary32) : Binary32 := .ofNat (Format.binary32.negated x.toNat)

/-- The double precision word with the other sign. -/
def Binary64.negated (x : Binary64) : Binary64 := .ofNat (Format.binary64.negated x.toNat)

private theorem Binary32.negated_ofNat_word {negative : Bool} {code : Nat}
    (fits : code ≤ Format.binary32.topCode) :
    (ofNat (Format.binary32.word negative code)).negated =
      ofNat (Format.binary32.word (!negative) code) := by
  rw [negated, Format.negated]
  exact congrArg₂ (fun s c => ofNat (Format.binary32.word (!s) c)) (isNegative_ofNat_word fits)
    (code_ofNat_word fits)

namespace Binary64

variable {x y : Binary64}

theorem word_isNegative_code (x : Binary64) :
    Format.binary64.word x.isNegative x.code = x.toNat :=
  Format.binary64.word_isNegative_code (show x.toNat < 2 ^ 64 from x.bits.toNat_lt)

private theorem extended_le_iff (first : x.isNaN = false) (second : y.isNaN = false) :
    x.extended ≤ y.extended ↔
      Binary32.signed x.isNegative x.code ≤ Binary32.signed y.isNegative y.code := by
  rw [extended, extended, ← x.word_isNegative_code, ← y.word_isNegative_code]
  exact Format.extended_word_le_iff Format.binary64_proper (code_le_of_number first)
    (code_le_of_number second)

section Negated

variable (number : x.isNaN = false)
include number

private theorem toNat_negated : x.negated.toNat = Format.binary64.word (!x.isNegative) x.code :=
  toNat_ofNat_word (code_le_of_number number)

private theorem isNegative_negated : x.negated.isNegative = !x.isNegative := by
  rw [isNegative, toNat_negated number, Format.isNegative_word _ _
    (Nat.lt_of_le_of_lt (code_le_of_number number) Format.binary64_proper.top_lt)]

private theorem code_negated : x.negated.code = x.code := by
  rw [code, toNat_negated number, Format.code_word _ _
    (Nat.lt_of_le_of_lt (code_le_of_number number) Format.binary64_proper.top_lt)]

private theorem isNaN_negated : x.negated.isNaN = false := by
  rw [← Bool.not_eq_true, isNaN, Format.isNaN_iff]
  exact Nat.not_lt.mpr (le_of_eq_of_le (code_negated number) (code_le_of_number number))

end Negated

end Binary64

namespace FloatKind

/-- The number that is loaded where a double precision number was stored. -/
def stored (kind : FloatKind) (x : Binary64) : Binary32 := kind.decode (kind.encodeDouble x)

/-- The code that is loaded where a single precision code was stored. -/
def keptCode (kind : FloatKind) (code : Nat) : Nat :=
  Format.binary32.carriedCode kind.format (kind.format.carriedCode .binary32 code)

/-- The code that is loaded where a double precision code was stored. -/
def storedCode (kind : FloatKind) (code : Nat) : Nat :=
  kind.keptCode (Format.binary32.carriedCode .binary64 code)

variable (kind : FloatKind) {x y : Binary64} {low high code : Nat}

private theorem storedCode_le (code : Nat) : kind.storedCode code ≤ Format.binary32.topCode :=
  Format.binary32.carriedCode_le ..

/-- Each of the three conversions grows with the code. -/
private theorem storedCode_mono (ordered : low ≤ high) (fits : high ≤ Format.binary64.topCode) :
    kind.storedCode low ≤ kind.storedCode high := by
  have narrowed := Format.carriedCode_mono Format.binary32_proper.fraction .binary64 ordered fits
  have rounded := Format.carriedCode_mono kind.format_proper.fraction .binary32 narrowed
    (Format.carriedCode_le ..)
  exact Format.carriedCode_mono Format.binary32_proper.fraction kind.format rounded
    (Format.carriedCode_le ..)

private theorem storedCode_zero : kind.storedCode 0 = 0 := by
  rw [storedCode, Format.carriedCode_zero Format.binary64_proper, keptCode,
    Format.carriedCode_zero Format.binary32_proper, Format.carriedCode_zero kind.format_proper]

/-- The widest kind keeps every code of single precision. -/
private theorem keptCode_f64 (fits : code ≤ Format.binary32.topCode) : f64.keptCode code = code :=
  Format.carriedCode_carriedCode Format.binary64_covers_binary32 Format.binary32_proper fits

/-- A code that was kept is kept as it is: the kinds below single precision get their own code back, and
the others lose none of the codes of single precision. -/
private theorem keptCode_keptCode (fits : code ≤ Format.binary32.topCode) :
    kind.keptCode (kind.keptCode code) = kind.keptCode code := by
  have narrow (covered : Format.binary32.Covers kind.format) :
      kind.keptCode (kind.keptCode code) = kind.keptCode code := by
    rw [keptCode, keptCode, Format.carriedCode_carriedCode covered kind.format_proper
      (Format.carriedCode_le ..)]
  cases kind with
  | f8 => exact narrow Format.binary32_covers_float8
  | f16 => exact narrow Format.binary32_covers_binary16
  | bf16 => exact narrow Format.binary32_covers_bfloat16
  | f32 =>
    have same {c : Nat} (below : c ≤ Format.binary32.topCode) : f32.keptCode c = c := by
      rw [keptCode, format, Format.carriedCode_self Format.binary32_proper.fraction below,
        Format.carriedCode_self Format.binary32_proper.fraction below]
    rw [same fits, same fits]
  | f64 => rw [keptCode_f64 fits, keptCode_f64 fits]

/-- A number is stored and loaded by its code. -/
private theorem stored_eq (number : x.isNaN = false) :
    kind.stored x = .ofNat (Format.binary32.word x.isNegative (kind.storedCode x.code)) := by
  have fits := Format.binary32.carriedCode_le .binary64 x.code
  have narrowed : x.toBinary32.isNaN = false := x.isNaN_toBinary32.trans number
  have rounded : kind.decode (kind.encode x.toBinary32) =
      .ofNat (Format.binary32.word x.isNegative (kind.storedCode x.code)) := by
    rw [kind.encode_eq narrowed, kind.decode_word _ (Format.carriedCode_le ..),
      Binary64.toBinary32_eq number, Binary32.isNegative_ofNat_word fits,
      Binary32.code_ofNat_word fits]
    rfl
  cases kind with
  | f8 | f16 | bf16 | f32 => exact rounded
  | f64 =>
    -- the widest kind takes the number as it is, and loading rounds it
    rw [stored, encodeDouble, decode, Binary64.ofNat_toNat, Binary64.toBinary32_eq number, storedCode,
      keptCode_f64 fits]

private theorem isNaN_stored : (kind.stored x).isNaN = x.isNaN := by
  cases nan : x.isNaN with
  -- a number has a code on the way, and a NaN is none at each step
  | false =>
    rw [kind.stored_eq nan]
    exact Binary32.isNaN_ofNat_word (kind.storedCode_le _)
  | true =>
    apply kind.isNaN_decode
    cases kind with
    | f8 | f16 | bf16 | f32 => exact isNaN_encode _ (x.isNaN_toBinary32.trans nan)
    | f64 => exact nan

private theorem stored_le (first : x.isNaN = false) (second : y.isNaN = false)
    (ordered : x.extended ≤ y.extended) : (kind.stored x).extended ≤ (kind.stored y).extended := by
  have word {negative : Bool} {c : Nat} : (Binary32.ofNat
      (Format.binary32.word negative (kind.storedCode c))).toNat =
        Format.binary32.word negative (kind.storedCode c) :=
    Binary32.toNat_ofNat (Format.binary32.word_lt negative
      (Nat.lt_of_le_of_lt (kind.storedCode_le c) Format.binary32_proper.top_lt))
  rw [Binary64.extended_le_iff first second] at ordered
  rw [kind.stored_eq first, kind.stored_eq second, Binary32.extended, Binary32.extended, word, word,
    Format.extended_word_le_iff Format.binary32_proper (kind.storedCode_le _) (kind.storedCode_le _)]
  exact Binary32.signed_le (fun _ _ => kind.storedCode_mono) kind.storedCode_zero
    (Binary64.code_le_of_number first) (Binary64.code_le_of_number second) ordered

private theorem stored_negated (number : x.isNaN = false) :
    kind.stored x.negated = (kind.stored x).negated := by
  rw [kind.stored_eq (Binary64.isNaN_negated number), Binary64.isNegative_negated number,
    Binary64.code_negated number, kind.stored_eq number,
    Binary32.negated_ofNat_word (kind.storedCode_le _)]

private theorem stored_stored (number : x.isNaN = false) :
    kind.stored (kind.stored x).toBinary64 = kind.stored x := by
  have loaded : (kind.stored x).isNaN = false := kind.isNaN_stored.trans number
  have fits := kind.storedCode_le x.code
  have sign : (kind.stored x).isNegative = x.isNegative := by
    rw [kind.stored_eq number, Binary32.isNegative_ofNat_word fits]
  have code : (kind.stored x).code = kind.storedCode x.code := by
    rw [kind.stored_eq number, Binary32.code_ofNat_word fits]
  -- widening and narrowing give the loaded code back, and a kept code is kept
  have again : kind.storedCode (kind.stored x).toBinary64.code = kind.storedCode x.code := by
    rw [Binary32.code_toBinary64 loaded, code, storedCode,
      Format.carriedCode_carriedCode Format.binary64_covers_binary32 Format.binary32_proper fits]
    exact kind.keptCode_keptCode (Format.carriedCode_le ..)
  rw [kind.stored_eq (Binary32.isNaN_toBinary64 loaded), Binary32.isNegative_toBinary64 loaded, again,
    sign, ← kind.stored_eq number]

/-- Storing a double precision number in any kind and loading it again is a projection that keeps the
order and the sign: NaNs and only they come out as NaNs, a larger number comes out as no smaller one,
infinities and zeros of either sign included, a number of the other sign comes out with the other sign
and the same magnitude, and what came out comes out once more with the same bits. -/
theorem stored_projects (kind : FloatKind) :
    (∀ x : Binary64, (kind.stored x).isNaN = x.isNaN) ∧
      (∀ x y : Binary64, x.isNaN = false → y.isNaN = false → x.extended ≤ y.extended →
        (kind.stored x).extended ≤ (kind.stored y).extended) ∧
      ∀ x : Binary64, x.isNaN = false → kind.stored x.negated = (kind.stored x).negated ∧
        kind.stored (kind.stored x).toBinary64 = kind.stored x :=
  ⟨fun _ => kind.isNaN_stored, fun _ _ => kind.stored_le,
    fun _ number => ⟨kind.stored_negated number, kind.stored_stored number⟩⟩

/-- Half precision flushes three quarters of its smallest number to a zero of the same sign, and keeps the
smallest number itself. -/
theorem stored_projects_threeQuarters :
    (f16.stored ⟨0x3E68000000000000⟩).extended ≤ (f16.stored ⟨0x3E70000000000000⟩).extended ∧
      f16.stored ⟨0xBE68000000000000⟩ = .zero true ∧
      f16.stored (f16.stored ⟨0x3E70000000000000⟩).toBinary64 = ⟨0x33800000⟩ := by
  obtain ⟨-, ordered, both⟩ := stored_projects f16
  refine ⟨ordered _ _ (by decide) (by decide) ?_, ?_, ?_⟩
  · exact (Binary64.extended_le_iff (by decide) (by decide)).mpr (by decide)
  · exact (both ⟨0x3E68000000000000⟩ (by decide)).1.trans (by decide +kernel)
  · exact (both ⟨0x3E70000000000000⟩ (by decide)).2.trans (by decide +kernel)

end FloatKind

end QuantLinear
