import QuantLinear.Element.Kind

/-!
Reading and writing elements of the floating kinds through single precision.

Every kind is read as a single precision number and written by rounding one. Widening never
rounds; narrowing rounds once to the nearest word, ties to even.
-/

namespace QuantLinear

namespace FloatKind

def isNaN (kind : FloatKind) (word : Nat) : Bool := kind.format.isNaN word

/-- The positive quiet NaN that stands for all NaNs of a kind. -/
def quietNaN : FloatKind → Nat
  | .f8 => 0x7F
  | .f16 => 0x7E00
  | .bf16 => 0x7FC0
  | .f32 => 0x7FC00000
  | .f64 => 0x7FF8000000000000

/-- The word with all NaNs identified. -/
def canonical (kind : FloatKind) (word : Nat) : Nat :=
  if kind.isNaN word then kind.quietNaN else word

/-- The word that stores a single precision number. A NaN keeps its sign; the wide kinds and
the upper half of a single precision word keep its payload as well. -/
def encode (kind : FloatKind) (x : Binary32) : Nat :=
  match kind with
  | .f8 => Format.float8.convert .binary32 (Format.float8.word x.isNegative 0x7F) x.datum
  | .f16 => Format.binary16.convert .binary32 (Format.binary16.word x.isNegative 0x7E00) x.datum
  | .bf16 => Format.bfloat16.convert .binary32 (x.quiet.toNat >>> 16) x.datum
  | .f32 => x.toNat
  | .f64 => x.toBinary64.toNat

/-- The word that stores a double precision number. All kinds but the widest round it to single
precision first. -/
def encodeDouble (kind : FloatKind) (x : Binary64) : Nat :=
  match kind with
  | .f64 => x.toNat
  | kind => kind.encode x.toBinary32

def decode (kind : FloatKind) (word : Nat) : Binary32 :=
  let wide (format : Format) (nan : Nat) : Binary32 :=
    .ofNat (Format.binary32.convert format
      (Format.binary32.word (format.isNegative word) nan) (format.datum word))
  match kind with
  | .f8 => wide .float8 0x7FC00000
  | .f16 => wide .binary16 (0x7F800000 + (word &&& 0x3FF) <<< 13)
  | .bf16 => .ofNat (word <<< 16)
  | .f32 => .ofNat word
  | .f64 => (Binary64.ofNat word).toBinary32

/-- The word of kind `target` for a word of kind `source`. -/
def cast (source target : FloatKind) (word : Nat) : Nat :=
  if source = target then word
  else if source = .f64 then target.encodeDouble (.ofNat word)
  else target.encode (source.decode word)

/-- The word that stores an integer; only the widest kind takes it without a single precision
step. -/
def encodeInt (kind : FloatKind) (n : Int) : Nat :=
  match kind with
  | .f64 => (Binary64.ofInt n).toNat
  | kind => kind.encode (.ofInt n)

end FloatKind

end QuantLinear
