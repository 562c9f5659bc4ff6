import QuantLinear.Proofs.Forward.Product

/-!
Applying a layer, from the checks on its kernels to its output.

Materializing keeps the numbers of a layer wherever the reference looks, so a layer computes the same
whether it was materialized before or is on the way.
-/

namespace QuantLinear

open QuantLinear.Action

/-- A scale has a single element, one for each output, or no more than the weight. -/
private theorem LayerSpec.count_expectedShape_le {spec : LayerSpec} {role : ScaleRole} {shape : Shape}
    (fits : spec.Fits) (expected : spec.variant.expectedShape (some role) spec = .ok shape) :
    shape.count ≤ max 1 (max spec.outFeatures.toNat
      (spec.outFeatures.toNat * spec.inFeatures.toNat)) := by
  have vector (extent : UInt64) : Shape.count [extent] = extent.toNat := by
    rw [Shape.count_cons, Shape.count_nil, Nat.mul_one]
  unfold Variant.expectedShape at expected
  split at expected
  · cases expected
    exact le_max_left _ _
  · cases expected
    rw [vector]
    exact (le_max_left _ _).trans (le_max_right _ _)
  · cases expected
    exact le_max_left _ _
  · cases expected
    rw [vector]
    exact (le_max_left _ _).trans (le_max_right _ _)
  · next rows columns _ blocks =>
    obtain ⟨someRows, someColumns⟩ := LayerSpec.block_ne_zero blocks
    cases expected
    -- There are no more blocks than elements of the weight.
    rw [Shape.count_pair]
    have fewer := Nat.mul_le_mul (toNat_ceilDiv_le someRows (fits.rows rows columns blocks))
      (toNat_ceilDiv_le someColumns (fits.columns rows columns blocks))
    exact fewer.trans ((le_max_right _ _).trans (le_max_right _ _))
  · cases expected

/-- The scales of a layer whose sizes fit can be counted. -/
private theorem LayerSpec.count_expectedShape_lt {spec : LayerSpec} {role : ScaleRole} {shape : Shape}
    (fits : spec.Fits) (expected : spec.variant.expectedShape (some role) spec = .ok shape) :
    shape.count < 2 ^ 64 := by
  have few := count_expectedShape_le fits expected
  have outputs := spec.outFeatures.toNat_lt
  have small := fits.weight
  omega

/-- A single element has nothing to wrap. -/
theorem View.fits_single {v : View} (single : v.shape.count = 1) : v.Fits where
  bytes := by
    have small := v.kind.size_le
    rw [single]
    omega
  range _ place below := by
    rw [single] at below
    have offset := v.offset.toNat_lt
    rw [Nat.lt_one_iff.mp below]
    omega

section Numbers

variable {before after : Machine} {layer ready : Layer}

/-- Materializing keeps the numbers of a scale. -/
theorem Readied.scale (readied : Readied before layer ready after) (held : layer.Held before.memory)
    (fits : layer.spec.Fits) {role : ScaleRole} (member : role ∈ layer.required)
    (whole : ∀ scale, layer.scales.get role = .held scale → scale.Fits) {index : Index}
    (inside : (layer.scaleShape role).Within index) :
    (ready.numbers after.memory).scale role index = (layer.numbers before.memory).scale role index := by
  obtain ⟨scale, found, made⟩ := readied.slots.held role member
  have now : (ready.scales.get role).tensor? = some scale := by
    rw [found]
    rfl
  simp only [Layer.numbers, now]
  cases loaded : (layer.scales.get role).tensor? with
  | none =>
    -- A scale that no one loaded reads as ones before and after.
    obtain ⟨-, -, kind, float, ones⟩ := made.ones (by rw [Layer.lacks, loaded]; rfl)
    have count := LayerSpec.count_expectedShape_lt fits (Layer.expectedShape_of_required member)
    have place := ones (scale.shape.placeOf index) (by
      rw [View.numel, made.shape, Shape.toNat_numel_of_lt count]
      exact Shape.placeOf_lt inside)
    rw [Shape.indexAt_placeOf (by rw [made.shape]; exact inside)] at place
    simp only [Memory.numberAt_eq float, place]
  | some source =>
    have there := ScaleSlot.held_of_tensor? loaded
    obtain ⟨copied, -⟩ := made.copy source loaded
    have suits := readied.slots.suits role member source loaded
    obtain ⟨kind, float⟩ := ElementKind.float_of_isFloating suits.2
    simp only [Memory.numberAt_eq float, Memory.numberAt_eq (copied.kind.trans float), Memory.number]
    rw [copied.words (held.scales role source there) (whole source there) index
      (by rw [suits.1]; exact inside)]

/-- Materializing keeps the numbers of a layer. -/
theorem Readied.numbers (readied : Readied before layer ready after)
    (followed : before.Follows [] after) (sound : layer.Sound) (held : layer.Held before.memory)
    (unready : layer.materialized = false) (fits : layer.spec.Fits)
    (scales : ∀ role ∈ layer.required, ∀ scale, layer.scales.get role = .held scale → scale.Fits) :
    LayerNumbers.Agree layer.spec (ready.numbers after.memory) (layer.numbers before.memory) where
  weight j inRows p inColumns := by
    have plain := sound.plain unready
    -- A packed weight shows the numbers of the weight it was packed from.
    by_cases pending : layer.ToPack
    · obtain ⟨kind, shape⟩ := sound.plainWeight plain
      have tiled := readied.weight.tiled pending
      have small := fits.weight
      have packable : Kernel.Packable before.memory layer.weight.toView layer.spec.outFeatures
          layer.spec.inFeatures := ⟨held.weight, kind, shape, tiled.1, tiled.2, by omega⟩
      simp only [Layer.numbers, (readied.weight.packed pending).1, plain, readied.spec, if_true,
        Bool.false_eq_true, if_false]
      exact readied.weight.numbers pending _ _ packable j inRows p inColumns
    · obtain ⟨weight, repacked⟩ := readied.weight.kept pending
      simp only [Layer.numbers, repacked, plain, weight, Bool.false_eq_true, if_false]
      exact followed.memory.number held.weight List.not_mem_nil _ _
  scale role member shape expected index inside := by
    have same : shape = layer.scaleShape role :=
      Except.ok.inj (expected.symm.trans (Layer.expectedShape_of_required member))
    exact readied.scale held fits member (scales role member) (same ▸ inside)
  bias := by
    simp only [Layer.numbers, readied.bias]
    cases present : layer.bias with
    | none => simp only [Option.map_none]
    | some bias =>
      simp only [Option.map_some, followed.memory.numberAt (held.bias bias present) List.not_mem_nil]

end Numbers

/-- A layer that is materialized after a call, and its form there. -/
def Ensured (before : Machine) (id : LayerId) (layer ready : Layer) (after : Machine) : Prop :=
  layer.materialized = true ∧ ready = layer ∧ after = before ∨
    layer.materialized = false ∧ ∃ called, Committed before id layer ready called after

namespace Ensured

variable {before after : Machine} {id : LayerId} {layer ready : Layer}

/-- The storages are as they were, up to new ones. -/
theorem memory (ensured : Ensured before id layer ready after) :
    before.memory.Evolves [] after.memory := by
  rcases ensured with ⟨-, -, rfl⟩ | ⟨-, called, prepared, followed, -, rfl⟩
  · exact .refl _ _
  · exact followed.memory

theorem layers (ensured : Ensured before id layer ready after)
    (there : before.layers[id]? = some layer) :
    after.layers = before.layers.setIfInBounds id ready := by
  rcases ensured with ⟨-, rfl, rfl⟩ | ⟨-, called, prepared, followed, -, rfl⟩
  · obtain ⟨inside, same⟩ := Array.getElem?_eq_some_iff.mp there
    simp [Array.setIfInBounds, inside, ← same]
  · exact congrArg (·.setIfInBounds id ready) followed.layers

theorem found (ensured : Ensured before id layer ready after)
    (there : before.layers[id]? = some layer) : after.layers[id]? = some ready := by
  obtain ⟨inside, -⟩ := Array.getElem?_eq_some_iff.mp there
  simp [ensured.layers there, inside]

theorem serves (ensured : Ensured before id layer ready after) {device : Device}
    (serves : before.Serves device) : after.Serves device := by
  rcases ensured with ⟨-, -, rfl⟩ | ⟨-, called, prepared, followed, -, rfl⟩
  · exact serves
  · exact ⟨⟨(serves.later followed).builtin.runtime, (serves.later followed).builtin.kernels⟩,
      serves.host⟩

theorem materialized (ensured : Ensured before id layer ready after) : ready.materialized = true := by
  rcases ensured with ⟨done, rfl, -⟩ | ⟨-, called, prepared, -, readied, -⟩
  · exact done
  · exact readied.materialized

theorem spec (ensured : Ensured before id layer ready after) :
    ready.spec = layer.spec ∧ ready.device = layer.device := by
  rcases ensured with ⟨-, rfl, -⟩ | ⟨-, called, prepared, -, readied, -⟩
  · exact ⟨rfl, rfl⟩
  · exact ⟨readied.spec, readied.device⟩

theorem sound (ensured : Ensured before id layer ready after) (sound : layer.Sound) :
    ready.Sound := by
  rcases ensured with ⟨-, rfl, -⟩ | ⟨unready, called, prepared, -, readied, -⟩
  · exact sound
  · exact readied.sound sound unready

theorem held (ensured : Ensured before id layer ready after) (held : layer.Held before.memory) :
    ready.Held after.memory := by
  rcases ensured with ⟨-, rfl, rfl⟩ | ⟨-, called, prepared, followed, readied, rfl⟩
  · exact held
  · exact readied.held held followed

theorem numbers (ensured : Ensured before id layer ready after) (sound : layer.Sound)
    (held : layer.Held before.memory) (fits : layer.spec.Fits)
    (scales : layer.materialized = false → ∀ role ∈ layer.required,
      ∀ scale, layer.scales.get role = .held scale → scale.Fits) :
    LayerNumbers.Agree layer.spec (ready.numbers after.memory) (layer.numbers before.memory) := by
  rcases ensured with ⟨-, rfl, rfl⟩ | ⟨unready, called, prepared, followed, readied, rfl⟩
  · exact .refl _ _
  · exact readied.numbers followed sound held unready fits (scales unready)

/-- The given scale of the activations stays a divisor, or none. -/
theorem divides_iff (ensured : Ensured before id layer ready after) (held : layer.Held before.memory)
    (fits : layer.spec.Fits) : ready.Divides after.memory ↔ layer.Divides before.memory := by
  rcases ensured with ⟨-, rfl, rfl⟩ | ⟨-, called, prepared, -, readied, rfl⟩
  · rfl
  · simp only [Layer.Divides, Layer.variant, readied.spec]
    refine forall_congr' fun standard => forall_congr' fun given => ?_
    obtain ⟨granularity, standard⟩ := standard
    have member : .input ∈ layer.required := LayerSpec.input_required standard given
    have whole (scale : Tensor) (there : layer.scales.get .input = .held scale) : scale.Fits := by
      have shape := (readied.slots.suits .input member scale (by rw [there]; rfl)).1
      exact View.fits_single (congrArg Shape.count shape)
    have same : (ready.numbers prepared.memory).scale .input [0] =
        (layer.numbers before.memory).scale .input [0] :=
      readied.scale held fits member whole ⟨Nat.one_pos, trivial⟩
    exact same ▸ Iff.rfl

/-- A layer that could be materialized has suitable scales, and whole tiles where it is packed. -/
theorem suits (ensured : Ensured before id layer ready after) (sound : layer.Sound) :
    (∀ role ∈ layer.required, layer.Suits role) ∧ (layer.variant = .packed → layer.Tiled) := by
  rcases ensured with ⟨done, -, -⟩ | ⟨unready, called, prepared, -, readied, -⟩
  · constructor
    · intro role member loaded there
      obtain ⟨scale, held, -, floating, -, shape⟩ := sound.scales done role member
      cases (ScaleSlot.held_of_tensor? there).symm.trans held
      exact ⟨(Except.ok.inj ((Layer.expectedShape_of_required member).symm.trans shape)).symm,
        floating⟩
    · exact fun packed => (sound.packedWeight (sound.repacked.mpr ⟨done, packed⟩)).2.2.2
  · exact ⟨readied.slots.suits,
      fun packed => readied.weight.tiled ⟨packed, sound.plain unready⟩⟩

/-- A scale that is made up for a layer is filled before the layer is materialized, and none is made up
afterwards. -/
theorem fillable (ensured : Ensured before id layer ready after) (sound : layer.Sound) :
    layer.Fillable := by
  intro role member lacking
  rcases ensured with ⟨done, -, -⟩ | ⟨-, called, prepared, -, readied, -⟩
  · obtain ⟨scale, held, -⟩ := sound.scales done role member
    rw [Layer.lacks, held] at lacking
    cases lacking
  · obtain ⟨scale, -, made⟩ := readied.slots.held role member
    exact made.filled lacking

end Ensured

/-- A layer that can be materialized where its missing scales find room: its devices are served, its
scales and its feature counts are as its variant needs them, and the observer refuses nothing. -/
structure Layer.Materializable (layer : Layer) (machine : Machine) : Prop where
  sound : layer.Sound
  held : layer.Held machine.memory
  fits : layer.spec.Fits
  serves : machine.Serves layer.device
  scales : ∀ role loaded, (layer.scales.get role).tensor? = some loaded →
    machine.Serves loaded.device
  suits : ∀ role ∈ layer.required, layer.Suits role
  tiled : layer.variant = .packed → layer.Tiled
  accepts : ∀ seen report, machine.observer.takes seen report = true

theorem ends_ensureLayer {machine : Machine} {id : LayerId} {layer : Layer}
    (there : machine.layers[id]? = some layer) :
    (ensureMaterialized id).Ends machine
      (fun _ after => ∃ ready, Ensured machine id layer ready after)
      (fun fault after => (machine.Follows [] after ∨ ∃ ready, Ensured machine id layer ready after) ∧
        (layer.Materializable machine → layer.Overruns fault)) := by
  cases done : layer.materialized with
  | true =>
    simp only [ensureMaterialized, findLayer, ends_bind, ends_get, there, ends_pure, done, if_true]
    exact ⟨layer, .inl ⟨done, rfl, rfl⟩⟩
  | false =>
    refine (ends_ensureMaterialized there done).mono (fun _ after ended => ?_)
      fun fault after ended => ?_
    · obtain ⟨ready, committed, -⟩ := ended
      exact ⟨ready, .inr ⟨done, _, committed⟩⟩
    · rcases ended with ⟨followed, failed⟩ | ⟨-, ready, earlier, refused, later, -, committed, fails⟩
      · refine ⟨.inl followed, fun able => ?_⟩
        have plain := able.sound.plain done
        obtain ⟨kind, shape⟩ := able.sound.plainWeight plain
        have home := able.sound.weightDevice
        -- With suitable scales and served devices only packing could have failed otherwise.
        rcases failed ⟨by rw [home]; exact able.serves, able.scales,
          ElementKind.isFloating_of_isWideFloating able.sound.params⟩ able.suits
          with overruns | ⟨pending, unfit⟩
        · exact overruns
        · have tiled := able.tiled pending.1
          have small := able.fits.weight
          have packable := unfit tiled layer.spec.outFeatures layer.spec.inFeatures
          exact absurd ⟨able.held.weight, kind, shape, tiled.1, tiled.2, by omega⟩ packable
      · refine ⟨.inr ⟨ready, .inr ⟨done, _, committed⟩⟩, fun able => ?_⟩
        cases (able.accepts _ refused).symm.trans fails.refuses

theorem ends_checkKernels (variant : Variant) (device : Device) (machine : Machine) :
    (checkKernels variant device).Ends machine (fun _ after => after = machine)
      (fun _ after => after = machine ∧ ¬machine.Serves device) := by
  simp only [checkKernels, ends_bind, ends_get]
  generalize variant.kernels = kernels
  induction kernels with
  | nil => rfl
  | cons kernel rest ih =>
    simp only [List.forM, ends_bind, ends_require]
    refine ⟨fun _ => ih, fun none => ⟨trivial, fun serves => ?_⟩⟩
    rw [serves.kernel kernel] at none
    cases none

/-- Activations that a layer takes. -/
structure Layer.Takes (layer : Layer) (x : Tensor) : Prop where
  shape : ∃ lead, x.shape = lead ++ [layer.spec.inFeatures]
  wide : x.kind.isWideFloating = true
  device : x.device = layer.device

theorem Layer.checkActivation_eq_ok {layer : Layer} {activation : Handle} {x : Tensor} :
    layer.checkActivation activation = .ok x ↔ activation = some x ∧ layer.Takes x := by
  cases activation with
  | none =>
    constructor
    · intro checked
      cases checked
    · rintro ⟨given, -⟩
      cases given
  | some given =>
    simp only [Layer.checkActivation, bind_eq_ok, require_eq_ok, pure_eq_ok, beq_iff_eq,
      Option.some.injEq]
    constructor
    · rintro ⟨-, shape, -, wide, -, device, rfl⟩
      exact ⟨rfl, ⟨_, shape⟩, wide, device⟩
    · rintro ⟨rfl, ⟨lead, shape⟩, wide, device⟩
      exact ⟨(), by rw [shape, List.dropLast_concat], (), wide, (), device, rfl⟩

/-- A layer takes the same activations once it is materialized. -/
theorem Ensured.takes_iff {before after : Machine} {id : LayerId} {layer ready : Layer} {x : Tensor}
    (ensured : Ensured before id layer ready after) : ready.Takes x ↔ layer.Takes x := by
  obtain ⟨spec, device⟩ := ensured.spec
  constructor
  · rintro ⟨shape, wide, home⟩
    exact ⟨spec ▸ shape, wide, device ▸ home⟩
  · rintro ⟨shape, wide, home⟩
    exact ⟨spec.symm ▸ shape, wide, device.symm ▸ home⟩

/-- What a call on a layer may leave behind: new storages, and the layer materialized. -/
def Touched (before : Machine) (id : LayerId) (after : Machine) : Prop :=
  before.Follows [] after ∨ ∃ layer ready middle, before.layers[id]? = some layer ∧
    Ensured before id layer ready middle ∧ middle.Follows [] after

/-- Applying a layer is multiplying, once the layer is ready and takes the activations. -/
theorem ends_applyLayer_through (id : LayerId) (activation : Handle) (machine : Machine)
    {returns : Tensor → Machine → Prop} {fails : Fault → Machine → Prop}
    (stops : ∀ fault after, Touched machine id after → fails fault after)
    (multiplies : ∀ layer ready middle x, machine.layers[id]? = some layer →
      Ensured machine id layer ready middle → activation = some x → ready.Takes x →
      (ready.product x).Ends middle returns fails) :
    (applyLayer id activation).Ends machine returns fails := by
  simp only [applyLayer, findLayer, ends_bind, ends_get]
  cases there : machine.layers[id]? with
  | none => exact stops _ _ (.inl (.refl _ _))
  | some layer =>
    simp only [ends_pure]
    apply (ends_checkKernels layer.variant layer.device machine).mono
    · intro _ after same
      subst same
      apply (ends_ensureLayer there).mono
      · rintro _ middle ⟨ready, ensured⟩
        simp only [ensured.found there, ends_pure, ends_lift, Layer.checkActivation_eq_ok]
        constructor
        · intro x taken
          exact multiplies layer ready middle x there ensured taken.1 taken.2
        · intro fault _
          exact stops fault middle (.inr ⟨layer, ready, middle, there, ensured, .refl _ _⟩)
      · rintro fault middle ⟨followed | ⟨ready, ensured⟩, -⟩
        · exact stops fault middle (.inl followed)
        · exact stops fault middle (.inr ⟨layer, ready, middle, there, ensured, .refl _ _⟩)
    · rintro fault after ⟨rfl, -⟩
      exact stops fault _ (.inl (.refl _ _))

/-- However a call on a layer ends, it leaves behind no more than new storages and the layer
materialized. -/
theorem ends_applyLayer_touched (id : LayerId) (activation : Handle) (machine : Machine) :
    (applyLayer id activation).Ends machine (fun _ after => Touched machine id after)
      (fun _ after => Touched machine id after) := by
  apply ends_applyLayer_through
  · intro _ _ touched
    exact touched
  · intro layer ready middle x there ensured _ _
    -- what the product holds plays no part here, so any shape and kind of activations will do
    apply (ends_product ready x [] .f32 middle).mono
    · rintro _ after ⟨followed, -⟩
      exact .inr ⟨layer, ready, middle, there, ensured, followed⟩
    · rintro _ after ⟨followed, -⟩
      exact .inr ⟨layer, ready, middle, there, ensured, followed⟩

/-- Applying a layer. What a caller can tell from a result, and what keeps a call from failing. -/
theorem ends_applyLayer (id : LayerId) (activation : Handle) (lead : Shape) (kind : FloatKind)
    (machine : Machine) :
    (applyLayer id activation).Ends machine
      (fun result after => ∃ layer ready middle x, machine.layers[id]? = some layer ∧
        Ensured machine id layer ready middle ∧ middle.Follows [] after ∧ activation = some x ∧
        ready.Takes x ∧ (Prepared middle ready x lead kind → ready.Divides middle.memory ∧
          Produced middle.memory ready x result lead kind after.memory))
      (fun fault after => Touched machine id after ∧ ∀ layer, machine.layers[id]? = some layer →
        layer.Materializable machine → ∀ x, activation = some x → layer.Takes x →
        layer.Overruns fault ∨ ∃ ready middle, Ensured machine id layer ready middle ∧
          (Prepared middle ready x lead kind → ¬ready.Divides middle.memory)) := by
  simp only [applyLayer, findLayer, ends_bind, ends_get]
  cases there : machine.layers[id]? with
  | none => exact ⟨.inl (.refl _ _), fun layer same => by cases same⟩
  | some layer =>
    simp only [ends_pure]
    refine (ends_checkKernels layer.variant layer.device machine).mono (fun _ after same => ?_)
      fun _ after failed => ?_
    · subst same
      refine (ends_ensureLayer there).mono (fun _ middle ensured => ?_) fun _ after failed => ?_
      · obtain ⟨ready, ensured⟩ := ensured
        simp only [ensured.found there, ends_pure, ends_lift, Layer.checkActivation_eq_ok]
        constructor
        -- From here on the layer is materialized, also where the activations are refused.
        · intro x taken
          refine (ends_product ready x lead kind middle).mono (fun result after made => ?_)
            fun _ after failed => ⟨.inr ⟨layer, ready, middle, there, ensured, failed.1⟩,
              fun other same able y given takes => ?_⟩
          · exact ⟨layer, ready, middle, x, rfl, ensured, made.1, taken.1, taken.2, made.2⟩
          · cases same
            cases taken.1.symm.trans given
            refine .inr ⟨ready, middle, ensured, fun prepared => failed.2 prepared ?_⟩
            rw [ensured.spec.2]
            exact ensured.serves able.serves
        · intro fault refused
          refine ⟨.inr ⟨layer, ready, middle, there, ensured, .refl _ _⟩,
            fun other same able x given takes => ?_⟩
          cases same
          have again : ready.Takes x := ensured.takes_iff.mpr takes
          cases (Layer.checkActivation_eq_ok.mpr ⟨given, again⟩).symm.trans refused
      · refine ⟨?_, fun other same able _ _ _ => ?_⟩
        · rcases failed.1 with followed | ⟨ready, ensured⟩
          · exact .inl followed
          · exact .inr ⟨layer, ready, after, there, ensured, .refl _ _⟩
        · cases same
          exact .inl (failed.2 able)
    · obtain ⟨rfl, unserved⟩ := failed
      exact ⟨.inl (.refl _ _), fun other same able => by cases same; exact absurd able.serves unserved⟩

end QuantLinear
