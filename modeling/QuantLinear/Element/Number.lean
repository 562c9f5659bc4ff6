import QuantLinear.Element.Codec
import QuantLinear.Fault

/-!
Element kinds where numbers are asked for: only the floating kinds hold any.
-/

namespace QuantLinear.ElementKind

def ofCode (code : Int) : Except Fault ElementKind :=
  match ofCode? code with
  | some kind => pure kind
  | none => throw (.element (.unknownKind code))

/-- The floating kind to write numbers in. -/
def encodable : ElementKind → Except Fault FloatKind
  | .float kind => pure kind
  | kind => throw (.element (.notEncodable kind))

/-- The floating kind to read numbers in. -/
def decodable : ElementKind → Except Fault FloatKind
  | .float kind => pure kind
  | kind => throw (.element (.notDecodable kind))

end QuantLinear.ElementKind
