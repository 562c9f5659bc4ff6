/-!
Binary number formats with a sign bit and a magnitude code.

The magnitude codes of a format are ordered like the numbers they stand for, and every finite
magnitude is a natural multiple of the format's smallest one. Rounding an exact quotient is
therefore a function from naturals to codes, and all formats share it.
-/

namespace QuantLinear

/-- The integer nearest to `num / den`; a half goes to the even neighbour. -/
def divNearestEven (num den : Nat) : Nat :=
  let quotient := num / den
  let remainder := num % den
  if 2 * remainder < den then quotient
  else if den < 2 * remainder then quotient + 1
  else quotient + quotient % 2

/-- A binary format: a sign bit on top of a magnitude code. -/
structure Format where
  /-- The number of bits of a word, its sign bit included. -/
  width : Nat
  /-- The number of fraction bits of a magnitude code. -/
  fractionBits : Nat
  /-- The binary exponent of the smallest positive magnitude. -/
  quantum : Int
  /-- The code that every magnitude too large for the format takes; larger codes are NaNs. -/
  topCode : Nat
  /-- Whether the top code stands for infinity and not for the largest finite magnitude. -/
  topIsInfinite : Bool
  /-- Whether a magnitude below the smallest positive one always becomes zero. -/
  flushesTiny : Bool
deriving DecidableEq, Repr

/-- What a word of a format stands for; a finite magnitude is counted in units of the quantum. -/
inductive Datum where
  | nan
  | infinite (negative : Bool)
  | finite (negative : Bool) (units : Nat)
deriving DecidableEq, Repr

namespace Format

/-- Eight bits with four exponent bits and no infinity; the largest magnitude is 448. -/
def float8 : Format := ⟨8, 3, -9, 0x7E, false, false⟩

/-- The half precision interchange format. -/
def binary16 : Format := ⟨16, 10, -24, 0x7C00, true, true⟩

/-- The upper half of a single precision word. -/
def bfloat16 : Format := ⟨16, 7, -133, 0x7F80, true, false⟩

def binary32 : Format := ⟨32, 23, -149, 0x7F800000, true, false⟩

def binary64 : Format := ⟨64, 52, -1074, 0x7FF0000000000000, true, false⟩

/-- The weight of the sign bit. -/
def signBit (f : Format) : Nat := 1 <<< (f.width - 1)

/-- The word with the given sign and magnitude code. -/
def word (f : Format) (negative : Bool) (code : Nat) : Nat :=
  (if negative then f.signBit else 0) + code

def isNegative (f : Format) (word : Nat) : Bool := word / f.signBit % 2 == 1

def code (f : Format) (word : Nat) : Nat := word % f.signBit

theorem signBit_pos (f : Format) : 0 < f.signBit := by
  rw [signBit, Nat.one_shiftLeft]
  exact Nat.two_pow_pos _

theorem code_word (f : Format) (negative : Bool) {code : Nat} (fits : code < f.signBit) :
    f.code (f.word negative code) = code := by
  cases negative <;> simp [Format.code, word, Nat.mod_eq_of_lt fits]

theorem isNegative_word (f : Format) (negative : Bool) {code : Nat} (fits : code < f.signBit) :
    f.isNegative (f.word negative code) = negative := by
  cases negative <;> simp [isNegative, word, Nat.add_div_left, Nat.div_eq_of_lt fits, f.signBit_pos]

theorem word_isNegative_code (f : Format) {word : Nat} (fits : word < 2 * f.signBit) :
    f.word (f.isNegative word) (f.code word) = word := by
  have split := Nat.div_add_mod word f.signBit
  have bit : word / f.signBit < 2 := (Nat.div_lt_iff_lt_mul f.signBit_pos).mpr fits
  rcases Nat.le_one_iff_eq_zero_or_eq_one.mp (Nat.le_of_lt_succ bit) with zero | one
  · rw [zero] at split
    simpa [Format.word, isNegative, code, zero] using split
  · rw [one] at split
    simpa [Format.word, isNegative, code, one] using split

def isNaN (f : Format) (word : Nat) : Bool := f.topCode < f.code word

/-- The magnitude of a code in units of the quantum: the codes below the second binade count
the units themselves, and each later binade doubles the step. -/
def units (f : Format) (code : Nat) : Nat :=
  let binade := 1 <<< f.fractionBits
  if code < binade then code else (binade + code % binade) <<< (code / binade - 1)

/-- The number that a word stands for. -/
def datum (f : Format) (word : Nat) : Datum :=
  let code := f.code word
  if f.topCode < code then .nan
  else if f.topIsInfinite && code == f.topCode then .infinite (f.isNegative word)
  else .finite (f.isNegative word) (f.units code)

/-- The code nearest to `num / den` units when codes go on without a limit; a tie goes to the
even code. -/
def nearestCode (f : Format) (num den : Nat) : Nat :=
  let shift := (num / den).log2 - f.fractionBits
  shift <<< f.fractionBits + divNearestEven num (den <<< shift)

/-- The code that the format stores for `num / den` units. -/
def roundedCode (f : Format) (num den : Nat) : Nat :=
  if f.flushesTiny && num < den then 0 else min f.topCode (f.nearestCode num den)

/-- The code that stores `units` units of the format `source`. -/
def convertedCode (f source : Format) (units : Nat) : Nat :=
  let rise := source.quantum - f.quantum
  if 0 ≤ rise then f.roundedCode (units <<< rise.toNat) 1
  else f.roundedCode units (1 <<< (-rise).toNat)

/-- The word of the format that stores a number of the format `source`; `nan` stands for the
words that are none. -/
def convert (f source : Format) (nan : Nat) : Datum → Nat
  | .nan => nan
  | .infinite negative => f.word negative f.topCode
  | .finite negative units => f.word negative (f.convertedCode source units)

end Format

end QuantLinear
