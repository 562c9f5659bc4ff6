import QuantLinear.Numeric.Binary32

/-!
The values of a checkpoint's configuration and the types they can be read as.

A configuration is a JSON value as the nlohmann library holds it, and is read by the typed conversions
that this library documents. Reading a string takes strings alone, and reading a boolean takes booleans
alone; reading a size takes each kind of number and converts it as a cast does, an integer modulo the word
and a fraction without its fractional part; reading a sequence takes arrays and converts each item; and
anything else is refused as a wrong type. Parsing the text is not part of this: a number written without
fraction and exponent arrives as an integer, any other one as a double.
-/

namespace QuantLinear

inductive Value where
  | null
  | bool (value : Bool)
  | integer (value : Int)
  | real (value : Binary64)
  | text (value : String)
  | list (items : List Value)
  | table (entries : List (String × Value))
deriving Repr, Inhabited

namespace Binary64

/-- The integer part of a number; zero where there is none. A cast of a NaN, of an infinity or of a number
past the word has no defined result, and here takes zero or the integer part modulo the word. -/
def truncate (x : Binary64) : Int :=
  match x.datum with
  | .finite negative units => Binary32.signed negative (units >>> 1074)
  | _ => 0

end Binary64

namespace Value

/-- The value under a key; only tables have keys. -/
def find? (value : Value) (key : String) : Option Value :=
  match value with
  | .table entries => entries.lookup key
  | _ => none

def isNull : Value → Bool
  | .null => true
  | _ => false

def text? : Value → Option String
  | .text value => some value
  | _ => none

def bool? : Value → Option Bool
  | .bool value => some value
  | _ => none

/-- A number as a size: integers wrap to 64 bits and other numbers lose their fraction. -/
def size? : Value → Option UInt64
  | .integer value => some (UInt64.ofInt value)
  | .real value => some (UInt64.ofInt value.truncate)
  | _ => none

def items? {α : Type} (read : Value → Option α) : Value → Option (List α)
  | .list items => items.mapM read
  | _ => none

def sizes? : Value → Option (List UInt64) := items? size?

def texts? : Value → Option (List String) := items? text?

end Value

end QuantLinear
