/-!
What can go wrong with the quantization section of a checkpoint.
-/

namespace QuantLinear

/-- The faults of a quantization section and of the questions asked of it. -/
inductive CheckpointFault where
  | missingKey (key : String)
  | conversion (key : String)
  | valueType
  | noMethod
  | unsupportedMethod (method : String)
  | foreignMethod (method : String)
  | unsupportedScheme (scheme : String)
  | blockLength (entries : Nat)
  | blockNeedsDynamic
  | layerIgnored (layer : String)
deriving DecidableEq, Repr

namespace CheckpointFault

/-- The text of a fault; a value of an unexpected type that nobody names has none. -/
def message? : CheckpointFault → Option String
  | .missingKey key => some ("Key '" ++ key ++ "' not found in config.")
  | .conversion key => some ("Type conversion failed for key '" ++ key ++ "': <json>")
  | .valueType => none
  | .noMethod => some "Quantization config has no quant_method"
  | .unsupportedMethod method => some ("Unsupported quant_method '" ++ method ++ "'")
  | .foreignMethod method =>
    some ("Fp8 quantization config has quant_method '" ++ method ++ "'")
  | .unsupportedScheme scheme =>
    some ("Unsupported activation_scheme '" ++ scheme ++ "', expected 'dynamic' or 'static'")
  | .blockLength entries =>
    some ("weight_block_size must have 2 entries, got " ++ toString entries)
  | .blockNeedsDynamic =>
    some "Block-wise FP8 quantization only supports the dynamic activation scheme"
  | .layerIgnored layer =>
    some ("Layer '" ++ layer ++ "' is listed in ignored_layers and is not FP8 quantized")

end CheckpointFault

end QuantLinear
