import QuantLinear.Checkpoint
import QuantLinear.Proofs.Action

/-!
What the quantization section of a checkpoint decides.

The section is looked at three times: for the scheme of the weights, for whether they are packed and
for the variant of each layer. The first two go by whether there is a block size, the last one also
by whether it is usable. They agree on every section whose block size, if it has one, has no empty
side (`layer_variant_decided`).
-/

namespace QuantLinear

namespace Value

theorem get_eq_ok {α : Type} {value : Value} {read : Value → Option α} {key : String} {result : α} :
    value.get read key = .ok result ↔ (value.find? key).bind read = some result := by
  rw [get]
  cases value.find? key with
  | none => simp [throw, throwThe, MonadExceptOf.throw]
  | some entry =>
    cases entry_read : read entry with
    | none => simp [entry_read, throw, throwThe, MonadExceptOf.throw]
    | some found => simp [entry_read, pure_eq_ok]

/-- The block size that a section states, read as sizes. -/
def statedBlocks? (source : Value) : Option (List UInt64) :=
  (source.find? "weight_block_size").bind sizes?

end Value

namespace Checkpoint

variable {source : Value} {capability : Capability} {checkpoint : Checkpoint}

private theorem parseBlockSize_eq_ok {staticActivation : Bool} {size : Option BlockSize} :
    parseBlockSize source staticActivation = .ok size →
      match size with
      | none => source.statedBlocks? = none
      | some size => source.statedBlocks? = some [size.rows, size.columns] ∧
          staticActivation = false := by
  intro parsed
  rw [parseBlockSize] at parsed
  split at parsed
  · next absent =>
    rw [pure_eq_ok] at parsed
    subst parsed
    simp [Value.statedBlocks?, absent]
  · next null =>
    rw [pure_eq_ok] at parsed
    subst parsed
    simp [Value.statedBlocks?, null, Value.sizes?, Value.items?]
  · obtain ⟨sizes, read, parsed⟩ := bind_eq_ok.mp parsed
    have stated : source.statedBlocks? = some sizes := Value.get_eq_ok.mp read
    split at parsed
    · next rows columns =>
      obtain ⟨_, dynamic, parsed⟩ := bind_eq_ok.mp parsed
      rw [pure_eq_ok] at parsed
      subst parsed
      exact ⟨stated, by simpa using require_eq_ok.mp dynamic⟩
    · cases parsed

/-- What a section that is understood says. -/
structure Understood (source : Value) (capability : Capability) (checkpoint : Checkpoint) : Prop where
  method : source.getOr Value.text? "quant_method" "fp8" = "fp8"
  scheme : parseScheme source = .ok checkpoint.staticActivation
  blocks : parseBlockSize source checkpoint.staticActivation = .ok checkpoint.blockSize
  ignored : checkpoint.ignoredLayers = source.getOr Value.texts? "ignored_layers" []
  source_eq : checkpoint.source = source
  capability_eq : checkpoint.capability = capability

theorem parse_eq_ok : parse source capability = .ok checkpoint ↔
    Understood source capability checkpoint := by
  simp only [parse, bind_eq_ok, require_eq_ok, pure_eq_ok, beq_iff_eq]
  constructor
  · rintro ⟨-, method, staticActivation, scheme, size, blocks, rfl⟩
    exact ⟨method, scheme, blocks, rfl, rfl, rfl⟩
  · rintro ⟨method, scheme, blocks, ignored, rfl, rfl⟩
    refine ⟨(), method, _, scheme, _, blocks, ?_⟩
    rw [← ignored]

theorem layerSpec_eq_ok {path : String} {inFeatures outFeatures : UInt64} {hasBias : Bool}
    {paramsKind : ElementKind} {spec : LayerSpec} :
    checkpoint.layerSpec path inFeatures outFeatures hasBias paramsKind = .ok spec ↔
      checkpoint.isIgnored path = false ∧ spec =
        { inFeatures, outFeatures, hasBias, paramsKind, path
          perChannelSupported := checkpoint.capability.perChannel
          blockSize := checkpoint.blockSize
          usePacked := checkpoint.usePacked
          staticActivation := checkpoint.staticActivation } := by
  simp only [layerSpec, bind_eq_ok, require_eq_ok, pure_eq_ok, Bool.not_eq_true']
  constructor
  · rintro ⟨-, open_, rfl⟩
    exact ⟨open_, rfl⟩
  · rintro ⟨open_, rfl⟩
    exact ⟨(), open_, rfl⟩

/-- What is decided for a layer: its variant, as it follows from the section and the device. -/
structure Decided (source : Value) (capability : Capability) (scheme : WeightScheme)
    (variant : Variant) : Prop where
  scheme_iff : scheme = .blocks ↔ ∃ rows columns, source.statedBlocks? = some [rows, columns]
  /-- The weight has scales for its blocks where these have no empty side. -/
  block_iff : ∀ rows columns, variant = .block rows columns ↔
    scheme = .blocks ∧ source.statedBlocks? = some [rows, columns] ∧ rows ≠ 0 ∧ columns ≠ 0
  /-- Blocks with an empty side are passed over for a single scale, where the device multiplies
  eight bit weights as they are and nothing asks for packing. -/
  empty_block : ∀ rows columns, source.statedBlocks? = some [rows, columns] →
    rows = 0 ∨ columns = 0 → capability.float8 = true → capability.forcePacked = false →
      variant = .standard .tensor
  packed_iff : scheme = .whole →
    (variant = .packed ↔ capability.float8 = false ∨ capability.forcePacked = true)
  standard : scheme = .whole → variant ≠ .packed →
    variant = .standard (if capability.perChannel then .channel else .tensor)
  /-- A device that cannot multiply eight bit weights as they are is not asked to. -/
  native : capability.float8 = false →
    (∀ rows columns, source.statedBlocks? = some [rows, columns] → rows ≠ 0 ∧ columns ≠ 0) →
    ∀ granularity, variant ≠ .standard granularity

/-- Without a block size the device decides whether a weight is packed. -/
private theorem decided_whole {perChannel : Bool} (absent : source.statedBlocks? = none)
    (same : perChannel = capability.perChannel) {variant : Variant}
    (found : variant = if !capability.float8 || capability.forcePacked then .packed
      else .standard (if perChannel then .channel else .tensor)) :
    Decided source capability .whole variant := by
  subst same found
  constructor
  case scheme_iff => simp [absent]
  case block_iff =>
    intro rows columns
    constructor
    · intro same
      split at same <;> cases same
    · rintro ⟨none, -⟩
      cases none
  case empty_block => simp [absent]
  case packed_iff =>
    intro _
    by_cases packs : (!capability.float8 || capability.forcePacked) = true
    · rw [if_pos packs]
      exact ⟨fun _ => by simpa using packs, fun _ => rfl⟩
    · rw [if_neg packs]
      constructor
      · intro same
        cases same
      · intro asked
        exact absurd (by simpa using asked) packs
  case standard =>
    intro _ unpacked
    split at unpacked
    · exact absurd rfl unpacked
    · next plain => rw [if_neg plain]
  case native =>
    intro lacks _ granularity
    simp [lacks]

/-- With a block size no weight is packed. -/
private theorem decided_blocks {size : BlockSize}
    (stated : source.statedBlocks? = some [size.rows, size.columns]) {variant : Variant}
    (found : variant = if 0 < size.rows && 0 < size.columns then .block size.rows size.columns
      else .standard .tensor) :
    Decided source capability .blocks variant := by
  subst found
  have usable : (decide (0 < size.rows) && decide (0 < size.columns)) = true ↔
      size.rows ≠ 0 ∧ size.columns ≠ 0 := by
    simp [UInt64.pos_iff_ne_zero]
  constructor
  case scheme_iff => simp [stated]
  case block_iff =>
    intro rows columns
    by_cases fits : (decide (0 < size.rows) && decide (0 < size.columns)) = true
    · rw [if_pos fits, stated]
      constructor
      · intro same
        cases same
        exact ⟨rfl, rfl, usable.mp fits⟩
      · rintro ⟨-, same, -⟩
        cases same
        rfl
    · rw [if_neg fits, stated]
      constructor
      · intro same
        cases same
      · rintro ⟨-, same, some⟩
        cases same
        exact absurd (usable.mpr some) fits
  case empty_block =>
    intro rows columns same empty _ _
    cases stated.symm.trans same
    rw [if_neg]
    rw [usable]
    exact fun some => empty.elim some.1 some.2
  case packed_iff => exact fun whole => by cases whole
  case standard => exact fun whole => by cases whole
  case native =>
    intro _ some granularity
    rw [if_pos (usable.mpr (some _ _ stated))]
    exact Variant.noConfusion

/-- The variant of every layer follows from the section and the device. -/
theorem layer_variant_decided {path : String} {inFeatures outFeatures : UInt64} {hasBias : Bool}
    {paramsKind : ElementKind} {spec : LayerSpec} (parsed : parse source capability = .ok checkpoint)
    (made : checkpoint.layerSpec path inFeatures outFeatures hasBias paramsKind = .ok spec) :
    Decided source capability checkpoint.weightScheme spec.variant := by
  have understood := parse_eq_ok.mp parsed
  have stated := parseBlockSize_eq_ok understood.blocks
  obtain ⟨-, rfl⟩ := layerSpec_eq_ok.mp made
  cases found : checkpoint.blockSize with
  | none =>
    rw [found] at stated
    have whole : checkpoint.weightScheme = .whole := by simp [weightScheme, found]
    rw [whole]
    apply decided_whole stated (congrArg Capability.perChannel understood.capability_eq)
    simp [LayerSpec.variant, usePacked, found, understood.capability_eq]
  | some size =>
    rw [found] at stated
    have blocks : checkpoint.weightScheme = .blocks := by simp [weightScheme, found]
    rw [blocks]
    apply decided_blocks stated.1
    simp [LayerSpec.variant, usePacked, found]

/-- A section that states nothing but its method and its block size. -/
def blockSection (rows columns : Int) : Value :=
  .table [("quant_method", .text "fp8"),
    ("weight_block_size", .list [.integer rows, .integer columns])]

/-- What the section says of blocks of two rows and one column on a device without eight bit
products. -/
def inPairs : Checkpoint where
  source := blockSection 2 1
  capability := { float8 := false }
  staticActivation := false
  blockSize := some ⟨2, 1⟩
  ignoredLayers := []

theorem layer_variant_decided_inPairs :
    parse (blockSection 2 1) { float8 := false } = .ok inPairs ∧
      ∃ spec, inPairs.layerSpec "model.layers.0.mlp" 64 32 false (.float .f32) = .ok spec ∧
        spec.variant = .block 2 1 := by
  have parsed : parse (blockSection 2 1) { float8 := false } = .ok inPairs := rfl
  have made : inPairs.layerSpec "model.layers.0.mlp" 64 32 false (.float .f32) = .ok _ := rfl
  refine ⟨parsed, _, made, ?_⟩
  have decided := layer_variant_decided parsed made
  exact (decided.block_iff 2 1).mpr ⟨rfl, rfl, by decide, by decide⟩

/-- A block size with an empty side is one for the scheme of the weights and none for the variant,
also where the device cannot multiply eight bit weights as they are. -/
theorem emptyBlock_passed_over :
    (∃ checkpoint spec, parse (blockSection 0 128) {} = .ok checkpoint ∧
      checkpoint.layerSpec "model.layers.0.mlp" 64 32 false (.float .f32) = .ok spec ∧
      checkpoint.weightScheme = .blocks ∧ checkpoint.blockSize = some ⟨0, 128⟩ ∧
      ∀ rows columns, spec.variant ≠ .block rows columns) ∧
    ∃ checkpoint spec, parse (blockSection 0 128) { float8 := false } = .ok checkpoint ∧
      checkpoint.layerSpec "model.layers.0.mlp" 64 32 false (.float .f32) = .ok spec ∧
      spec.variant = .standard .tensor := by
  constructor
  · refine ⟨_, _, rfl, rfl, rfl, rfl, ?_⟩
    intro rows columns
    exact Variant.noConfusion
  · exact ⟨_, _, rfl, rfl, rfl⟩

end Checkpoint

end QuantLinear
