import QuantLinear.Numeric.Format

/-!
Single and double precision words and the arithmetic on single precision words.

Every operation reads its operands as exact multiples of the quantum, computes exactly, and
rounds once to the nearest word, ties to even.
-/

namespace QuantLinear

structure Binary32 where
  bits : UInt32
deriving DecidableEq, Repr, Inhabited

structure Binary64 where
  bits : UInt64
deriving DecidableEq, Repr, Inhabited

namespace Binary32

/-- The word with the bits of a natural number below `2 ^ 32`. -/
def ofNat (word : Nat) : Binary32 := ⟨UInt32.ofNat word⟩

def toNat (x : Binary32) : Nat := x.bits.toNat

def datum (x : Binary32) : Datum := Format.binary32.datum x.toNat

def isNegative (x : Binary32) : Bool := Format.binary32.isNegative x.toNat

def code (x : Binary32) : Nat := Format.binary32.code x.toNat

def isNaN (x : Binary32) : Bool := Format.binary32.isNaN x.toNat

def isFinite (x : Binary32) : Bool := x.code < Format.binary32.topCode

/-- The word nearest to `num / den` units of the quantum. -/
def nearest (negative : Bool) (num den : Nat) : Binary32 :=
  ofNat (Format.binary32.word negative (Format.binary32.roundedCode num den))

def zero (negative : Bool) : Binary32 := ofNat (Format.binary32.word negative 0)

def infinity (negative : Bool) : Binary32 :=
  ofNat (Format.binary32.word negative Format.binary32.topCode)

/-- The answer of an operation that has none; its sign bit is set. -/
def invalid : Binary32 := ⟨0xFFC00000⟩

/-- A NaN operand as an operation passes it on: its quiet bit is set. -/
def quiet (x : Binary32) : Binary32 := ⟨x.bits ||| 0x00400000⟩

instance : Zero Binary32 := ⟨zero false⟩

def one : Binary32 := ⟨0x3F800000⟩

/-- The units of the quantum in the number one, as a power of two. -/
def unitsInOne : Nat := 1 <<< 149

/-- A magnitude with its sign. -/
def signed (negative : Bool) (units : Nat) : Int := if negative then -(units : Int) else units

/-- The sum, rounded; zero is negative only as the sum of two negative zeros. -/
def add (x y : Binary32) : Binary32 :=
  match x.datum, y.datum with
  | .nan, _ => x.quiet
  | _, .nan => y.quiet
  | .infinite s, .infinite t => if s == t then infinity s else invalid
  | .infinite s, .finite _ _ => infinity s
  | .finite _ _, .infinite t => infinity t
  | .finite s u, .finite t v =>
    let total := signed s u + signed t v
    if total = 0 then zero (s && t) else nearest (total < 0) total.natAbs 1

/-- The product, rounded. -/
def mul (x y : Binary32) : Binary32 :=
  match x.datum, y.datum with
  | .nan, _ => x.quiet
  | _, .nan => y.quiet
  | .infinite s, .infinite t => infinity (s ^^ t)
  | .infinite s, .finite t v => if v = 0 then invalid else infinity (s ^^ t)
  | .finite s u, .infinite t => if u = 0 then invalid else infinity (s ^^ t)
  | .finite s u, .finite t v => nearest (s ^^ t) (u * v) unitsInOne

/-- The quotient, rounded. -/
def div (x y : Binary32) : Binary32 :=
  match x.datum, y.datum with
  | .nan, _ => x.quiet
  | _, .nan => y.quiet
  | .infinite _, .infinite _ => invalid
  | .infinite s, .finite t _ => infinity (s ^^ t)
  | .finite s _, .infinite t => zero (s ^^ t)
  | .finite s u, .finite t v =>
    if v = 0 then if u = 0 then invalid else infinity (s ^^ t)
    else nearest (s ^^ t) (u * unitsInOne) v

/-- The word without its sign bit. -/
def abs (x : Binary32) : Binary32 := ofNat x.code

/-- The place of a number in the order of all numbers; both zeros have the place zero. -/
def rank (x : Binary32) : Int := signed x.isNegative x.code

/-- Whether one number is below another; no NaN is. -/
def lt (x y : Binary32) : Bool := !x.isNaN && !y.isNaN && decide (x.rank < y.rank)

/-- The second operand where it is larger, else the first: a NaN in second place is passed over. -/
def max (x y : Binary32) : Binary32 := if x.lt y then y else x

instance : Add Binary32 := ⟨add⟩

instance : Mul Binary32 := ⟨mul⟩

instance : Div Binary32 := ⟨div⟩

/-- The word nearest to an integer. -/
def ofInt (n : Int) : Binary32 := nearest (n < 0) (n.natAbs * unitsInOne) 1

end Binary32

namespace Binary64

def ofNat (word : Nat) : Binary64 := ⟨UInt64.ofNat word⟩

def toNat (x : Binary64) : Nat := x.bits.toNat

def datum (x : Binary64) : Datum := Format.binary64.datum x.toNat

def isNegative (x : Binary64) : Bool := Format.binary64.isNegative x.toNat

def code (x : Binary64) : Nat := Format.binary64.code x.toNat

def isNaN (x : Binary64) : Bool := Format.binary64.isNaN x.toNat

/-- The double precision word nearest to an integer. -/
def ofInt (n : Int) : Binary64 :=
  ofNat (Format.binary64.word (n < 0) (Format.binary64.roundedCode (n.natAbs <<< 1074) 1))

/-- The nearest single precision word; a NaN keeps its sign and the top of its payload and
becomes quiet. -/
def toBinary32 (x : Binary64) : Binary32 :=
  let payload := (x.code - Format.binary64.topCode) >>> 29
  let nan := Format.binary32.word x.isNegative (Format.binary32.topCode + payload)
  if x.isNaN then (Binary32.ofNat nan).quiet
  else .ofNat (Format.binary32.convert .binary64 nan x.datum)

end Binary64

/-- The double precision word of the same number; a NaN keeps its sign and payload and becomes
quiet. -/
def Binary32.toBinary64 (x : Binary32) : Binary64 :=
  let payload := (x.quiet.code - Format.binary32.topCode) <<< 29
  let nan := Format.binary64.word x.isNegative (Format.binary64.topCode + payload)
  .ofNat (Format.binary64.convert .binary32 nan x.datum)

end QuantLinear
