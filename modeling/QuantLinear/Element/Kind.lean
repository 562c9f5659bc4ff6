import QuantLinear.Numeric.Binary32

/-!
The kinds of tensor elements: their names, their sizes, and the formats of the floating ones.
-/

namespace QuantLinear

/-- The kinds that hold floating point numbers. -/
inductive FloatKind where
  | f8
  | f16
  | bf16
  | f32
  | f64
deriving DecidableEq, Repr, Inhabited

inductive ElementKind where
  | byte
  | bool
  | i8
  | i16
  | i32
  | i64
  | u8
  | float (kind : FloatKind)
deriving DecidableEq, Repr, Inhabited

namespace FloatKind

def all : List FloatKind := [.f8, .f16, .bf16, .f32, .f64]

def label : FloatKind → String
  | .f8 => "F8"
  | .f16 => "F16"
  | .bf16 => "BF16"
  | .f32 => "F32"
  | .f64 => "F64"

def format : FloatKind → Format
  | .f8 => .float8
  | .f16 => .binary16
  | .bf16 => .bfloat16
  | .f32 => .binary32
  | .f64 => .binary64

def size (kind : FloatKind) : Nat := kind.format.width / 8

end FloatKind

namespace ElementKind

/-- Every kind in the order of its numeric code. -/
def all : List ElementKind :=
  [.byte, .bool, .i8, .i16, .i32, .i64, .u8] ++ FloatKind.all.map .float

def label : ElementKind → String
  | .byte => "BYTE"
  | .bool => "BOOL"
  | .i8 => "I8"
  | .i16 => "I16"
  | .i32 => "I32"
  | .i64 => "I64"
  | .u8 => "U8"
  | .float kind => kind.label

def size : ElementKind → Nat
  | .byte | .bool | .i8 | .u8 => 1
  | .i16 => 2
  | .i32 => 4
  | .i64 => 8
  | .float kind => kind.size

def isFloating : ElementKind → Bool
  | .float _ => true
  | _ => false

/-- Whether a kind holds numbers wider than eight bits, as activations and biases must. -/
def isWideFloating (kind : ElementKind) : Bool := kind.isFloating && kind != .float .f8

def ofCode? : Int → Option ElementKind
  | .ofNat code => all[code]?
  | .negSucc _ => none

def ofLabel? (label : String) : Option ElementKind := all.find? (·.label == label)

end ElementKind

end QuantLinear
