import Mathlib.Data.List.Forall2
import QuantLinear.Proofs.Checkpoint

/-!
The language of quantization sections.

What a section says is stated here of its entries alone: a text under a key, the block size, the list
of ignored layers, each with what counts where there is no such entry (`Value.States`,
`Value.StatesBlocks`). The parser understands exactly the sections that say something acceptable, and
it takes them at their word (`section_language`). A value that is no table has no entries, and so it
is a section of defaults; only the entry that names the method cannot be left out where the method
is looked for.
-/

namespace QuantLinear

namespace Value

/-- What a value states under a key by an entry of the given form; `default` counts where it has no
such entry. -/
inductive States {α : Type} (source : Value) (key : String) (form : α → Value) (default : α) :
    α → Prop
  | given {stated : α} (entry : source.find? key = some (form stated)) :
      States source key form default stated
  | missing (other : ∀ stated, source.find? key ≠ some (form stated)) :
      States source key form default default

/-- The form of a list of texts. -/
def ofTexts (texts : List String) : Value := .list (texts.map .text)

/-- The values that can be read as a size. -/
def IsNumber : Value → Prop
  | .integer _ | .real _ => True
  | _ => False

/-- The block size that a value states: a pair of numbers. No entry and a null state none. -/
inductive StatesBlocks (source : Value) : Option BlockSize → Prop
  | absent (missing : source.find? "weight_block_size" = none) : StatesBlocks source none
  | null (entry : source.find? "weight_block_size" = some .null) : StatesBlocks source none
  | pair {rows columns : Value} {size : BlockSize}
      (entry : source.find? "weight_block_size" = some (.list [rows, columns]))
      (first : rows.size? = some size.rows) (second : columns.size? = some size.columns) :
      StatesBlocks source (some size)

/-- Only tables have entries. -/
private theorem find?_eq_some {source entry : Value} {key : String} : source.find? key = some entry ↔
    ∃ entries, source = .table entries ∧ entries.lookup key = some entry := by
  cases source <;> simp [find?]

private theorem text?_eq_some {value : Value} {text : String} :
    value.text? = some text ↔ value = .text text := by
  cases value <;> simp [text?]

/-- All items of a list are read, each on its own. -/
private theorem mapM_eq_some {α : Type} {read : Value → Option α} {items : List Value}
    {results : List α} :
    items.mapM read = some results ↔
      List.Forall₂ (fun item result => read item = some result) items results := by
  induction items generalizing results with
  | nil => cases results <;> simp
  | cons item rest ih =>
    rw [List.mapM_cons]
    cases results with
    | nil => simp [bind, Option.bind_eq_some_iff]
    | cons result others => simp [bind, Option.bind_eq_some_iff, ← ih, and_comm, and_assoc]

private theorem texts?_eq_some {value : Value} {texts : List String} :
    value.texts? = some texts ↔ value = ofTexts texts := by
  cases value with
  | list items =>
    simp only [texts?, items?, mapM_eq_some, text?_eq_some, ofTexts, Value.list.injEq]
    rw [← List.forall₂_map_right_iff (f := Value.text) (R := (· = ·)), List.forall₂_eq_eq_eq]
  | _ => simp [texts?, items?, ofTexts]

/-- Two sizes are read from a list of two values. -/
private theorem sizes?_eq_some_pair {value : Value} {rows columns : UInt64} :
    value.sizes? = some [rows, columns] ↔ ∃ first second, value = .list [first, second] ∧
      first.size? = some rows ∧ second.size? = some columns := by
  cases value with
  | list items =>
    simp only [sizes?, items?, mapM_eq_some, Value.list.injEq, List.forall₂_cons_right_iff,
      List.forall₂_nil_right_iff]
    constructor
    · rintro ⟨first, _, read, ⟨second, _, below, rfl, rfl⟩, rfl⟩
      exact ⟨first, second, rfl, read, below⟩
    · rintro ⟨first, second, rfl, read, below⟩
      exact ⟨first, _, read, ⟨second, _, below, rfl, rfl⟩, rfl⟩
  | _ => simp [sizes?, items?]

private theorem isNumber_iff {value : Value} : value.IsNumber ↔ ∃ size, value.size? = some size := by
  cases value <;> simp [IsNumber, size?]

/-- An entry that can be read is one of its form, and all others count as the default. -/
private theorem getOr_eq_iff {α : Type} {source : Value} {read : Value → Option α} {key : String}
    {form : α → Value} {default result : α}
    (reads : ∀ value stated, read value = some stated ↔ value = form stated) :
    source.getOr read key default = result ↔ source.States key form default result := by
  have found (stated : α) : (source.find? key).bind read = some stated ↔
      source.find? key = some (form stated) := by
    rw [Option.bind_eq_some_iff]
    simp only [reads, exists_eq_right]
  rw [getOr]
  cases entry : (source.find? key).bind read with
  | some stated =>
    have given := (found stated).mp entry
    constructor
    · rintro rfl
      exact .given given
    · rintro (other | none)
      · exact Option.some.inj (entry.symm.trans ((found _).mpr other))
      · exact absurd given (none stated)
  | none =>
    have missing (stated : α) : source.find? key ≠ some (form stated) := fun given => by
      cases entry.symm.trans ((found stated).mpr given)
    constructor
    · rintro rfl
      exact .missing missing
    · rintro (other | _)
      · exact absurd other (missing _)
      · rfl

private theorem getOr_text_iff {source : Value} {key default text : String} :
    source.getOr text? key default = text ↔ source.States key .text default text :=
  getOr_eq_iff fun _ _ => text?_eq_some

private theorem getOr_texts_iff {source : Value} {key : String} {default texts : List String} :
    source.getOr texts? key default = texts ↔ source.States key ofTexts default texts :=
  getOr_eq_iff fun _ _ => texts?_eq_some

/-- Only a pair states a block size. -/
private theorem StatesBlocks.eq_none {source : Value} {size : Option BlockSize}
    (stated : source.StatesBlocks size)
    (other : ∀ rows columns,
      source.find? "weight_block_size" ≠ some (.list [rows, columns])) : size = none := by
  cases stated with
  | absent | null => rfl
  | pair entry => exact absurd entry (other _ _)

end Value

namespace Checkpoint

variable {source : Value} {capability : Capability} {checkpoint : Checkpoint}

/-- The name of a scheme of activations. -/
def schemeName (staticActivation : Bool) : String := if staticActivation then "static" else "dynamic"

private theorem parseScheme_eq_ok {staticActivation : Bool} :
    parseScheme source = .ok staticActivation ↔
    source.States "activation_scheme" .text "dynamic" (schemeName staticActivation) := by
  rw [← Value.getOr_text_iff, parseScheme]
  split
  · next same => cases staticActivation <;> simp [same, schemeName, pure_eq_ok]
  · split
    · next same => cases staticActivation <;> simp [same, schemeName, pure_eq_ok]
    · next other same =>
      cases staticActivation <;>
        simp [other, same, schemeName, throw, throwThe, MonadExceptOf.throw]

/-- A block size is understood where it is a pair of numbers beside dynamic activations. -/
private theorem parseBlockSize_iff {staticActivation : Bool} {size : Option BlockSize} :
    parseBlockSize source staticActivation = .ok size ↔
      source.StatesBlocks size ∧ (size ≠ none → staticActivation = false) := by
  rw [parseBlockSize]
  split
  · next absent =>
    rw [pure_eq_ok]
    constructor
    · rintro rfl
      exact ⟨.absent absent, fun some => absurd rfl some⟩
    · rintro ⟨stated, -⟩
      exact (stated.eq_none (by simp [absent])).symm
  · next null =>
    rw [pure_eq_ok]
    constructor
    · rintro rfl
      exact ⟨.null null, fun some => absurd rfl some⟩
    · rintro ⟨stated, -⟩
      exact (stated.eq_none (by simp [null])).symm
  · next entry notNull found =>
    -- an entry that is there counts as it can be read
    have stated (sizes : List UInt64) :
        source.get Value.sizes? "weight_block_size" = .ok sizes ↔ entry.sizes? = some sizes := by
      rw [Value.get_eq_ok, found, Option.bind_some]
    simp only [bind_eq_ok, stated]
    constructor
    · rintro ⟨sizes, read, parsed⟩
      split at parsed
      · next rows columns =>
        obtain ⟨first, second, rfl, above, below⟩ := Value.sizes?_eq_some_pair.mp read
        obtain ⟨_, dynamic, parsed⟩ := bind_eq_ok.mp parsed
        rw [require_eq_ok] at dynamic
        rw [pure_eq_ok] at parsed
        subst parsed
        exact ⟨.pair found above below, fun _ => by simpa using dynamic⟩
      · cases parsed
    · rintro ⟨absent | null | ⟨pair, above, below⟩, dynamic⟩
      · cases found.symm.trans absent
      · cases found.symm.trans null
        exact absurd rfl notNull
      · cases found.symm.trans pair
        refine ⟨_, Value.sizes?_eq_some_pair.mpr ⟨_, _, rfl, above, below⟩, ?_⟩
        rw [dynamic (Option.some_ne_none _)]
        rfl

/-- What a section is taken to say. -/
structure Described (source : Value) (capability : Capability) (checkpoint : Checkpoint) : Prop where
  method : source.States "quant_method" .text "fp8" "fp8"
  scheme : source.States "activation_scheme" .text "dynamic" (schemeName checkpoint.staticActivation)
  blocks : source.StatesBlocks checkpoint.blockSize
  /-- Blocks go with dynamic activations alone. -/
  dynamic : checkpoint.blockSize ≠ none → checkpoint.staticActivation = false
  ignored : source.States "ignored_layers" Value.ofTexts [] checkpoint.ignoredLayers
  source_eq : checkpoint.source = source
  capability_eq : checkpoint.capability = capability

private theorem understood_iff :
    Understood source capability checkpoint ↔ Described source capability checkpoint := by
  constructor
  · intro understood
    obtain ⟨blocks, dynamic⟩ := parseBlockSize_iff.mp understood.blocks
    exact ⟨Value.getOr_text_iff.mp understood.method, parseScheme_eq_ok.mp understood.scheme, blocks,
      dynamic, Value.getOr_texts_iff.mp understood.ignored.symm, understood.source_eq,
      understood.capability_eq⟩
  · intro described
    exact ⟨Value.getOr_text_iff.mpr described.method, parseScheme_eq_ok.mpr described.scheme,
      parseBlockSize_iff.mpr ⟨described.blocks, described.dynamic⟩,
      (Value.getOr_texts_iff.mpr described.ignored).symm, described.source_eq,
      described.capability_eq⟩

/-- A section that can be understood. -/
structure Acceptable (source : Value) : Prop where
  method : source.States "quant_method" .text "fp8" "fp8"
  scheme : source.States "activation_scheme" .text "dynamic" "static" ∨
    source.States "activation_scheme" .text "dynamic" "dynamic"
  blocks : source.find? "weight_block_size" = none ∨
    source.find? "weight_block_size" = some .null ∨
    ∃ rows columns, source.find? "weight_block_size" = some (.list [rows, columns]) ∧
      rows.IsNumber ∧ columns.IsNumber ∧
      source.States "activation_scheme" .text "dynamic" "dynamic"

/-- What an acceptable section describes. -/
private theorem Acceptable.described (acceptable : Acceptable source) (capability : Capability) :
    ∃ checkpoint, Described source capability checkpoint := by
  have ignored := Value.getOr_texts_iff.mp (rfl : source.getOr Value.texts? "ignored_layers" [] = _)
  -- without blocks either scheme will do
  have whole (none : source.StatesBlocks none) :
      ∃ checkpoint, Described source capability checkpoint := by
    rcases acceptable.scheme with scheme | scheme
    · exact ⟨⟨source, capability, true, Option.none, _⟩, acceptable.method, scheme, none,
        fun some => absurd rfl some, ignored, rfl, rfl⟩
    · exact ⟨⟨source, capability, false, Option.none, _⟩, acceptable.method, scheme, none,
        fun some => absurd rfl some, ignored, rfl, rfl⟩
  rcases acceptable.blocks with absent | null | ⟨rows, columns, entry, first, second, scheme⟩
  · exact whole (.absent absent)
  · exact whole (.null null)
  · obtain ⟨height, first⟩ := Value.isNumber_iff.mp first
    obtain ⟨width, second⟩ := Value.isNumber_iff.mp second
    exact ⟨⟨source, capability, false, some ⟨height, width⟩, _⟩, acceptable.method, scheme,
      .pair entry first second, fun _ => rfl, ignored, rfl, rfl⟩

private theorem Described.acceptable (described : Described source capability checkpoint) :
    Acceptable source where
  method := described.method
  scheme := by
    have scheme := described.scheme
    cases fixed : checkpoint.staticActivation with
    | true => exact .inl (by rwa [fixed] at scheme)
    | false => exact .inr (by rwa [fixed] at scheme)
  blocks := by
    have blocks := described.blocks
    cases stated : checkpoint.blockSize with
    | none =>
      rw [stated] at blocks
      cases blocks with
      | absent absent => exact .inl absent
      | null null => exact .inr (.inl null)
    | some size =>
      have dynamic := described.dynamic (by simp [stated])
      have scheme := described.scheme
      rw [stated] at blocks
      rw [dynamic] at scheme
      cases blocks with
      | pair entry first second =>
        exact .inr (.inr ⟨_, _, entry, Value.isNumber_iff.mpr ⟨_, first⟩,
          Value.isNumber_iff.mpr ⟨_, second⟩, scheme⟩)

/-- Where the method is looked for it must be stated, and then the section is understood as it is
anywhere. -/
private theorem parseNamed_eq_ok : parseNamed source capability = .ok checkpoint ↔
    source.find? "quant_method" = some (.text "fp8") ∧
      parse source capability = .ok checkpoint := by
  rw [parseNamed]
  cases entry : source.find? "quant_method" with
  | none => simp [throw, throwThe, MonadExceptOf.throw]
  | some value =>
    cases value with
    | text method =>
      by_cases same : method = "fp8"
      · simp [same, Value.text?]
      · simp [same, Value.text?, throw, throwThe, MonadExceptOf.throw]
    | _ => simp [Value.text?, throw, throwThe, MonadExceptOf.throw]

/-- The parser understands exactly the acceptable sections, and as what they describe. The one that
looks for the method understands those of them that are tables and state it. -/
theorem section_language (source : Value) (capability : Capability) :
    ((∃ checkpoint, parse source capability = .ok checkpoint) ↔ Acceptable source) ∧
    (∀ checkpoint, parse source capability = .ok checkpoint ↔
      Described source capability checkpoint) ∧
    ∀ checkpoint, parseNamed source capability = .ok checkpoint ↔
      (∃ entries, source = .table entries ∧ entries.lookup "quant_method" = some (.text "fp8")) ∧
        parse source capability = .ok checkpoint := by
  have described (checkpoint : Checkpoint) : parse source capability = .ok checkpoint ↔
      Described source capability checkpoint := parse_eq_ok.trans understood_iff
  refine ⟨⟨?_, ?_⟩, described, fun checkpoint => ?_⟩
  · rintro ⟨checkpoint, parsed⟩
    exact ((described checkpoint).mp parsed).acceptable
  · intro acceptable
    obtain ⟨checkpoint, taken⟩ := acceptable.described capability
    exact ⟨checkpoint, (described checkpoint).mpr taken⟩
  · rw [parseNamed_eq_ok, Value.find?_eq_some]

/-- A value that is no table is a section of defaults. -/
example (capability : Capability) :
    parse (.integer 8) capability = .ok ⟨.integer 8, capability, false, none, []⟩ := rfl

end Checkpoint

end QuantLinear
