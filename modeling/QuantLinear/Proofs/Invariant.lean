import QuantLinear.Proofs.Materialize

/-!
What every layer satisfies.

A layer is built with parameters that fit its configuration, takes only such parameters while it is
open, and is materialized once. The representation invariant `Layer.Sound` says what its fields have
in common all along; `Layer.Held` says that the tensors it holds exist.
-/

namespace QuantLinear

/-- The fields of a layer agree with each other and with its configuration. -/
structure Layer.Sound (layer : Layer) : Prop where
  features : layer.spec.inFeatures ≠ 0 ∧ layer.spec.outFeatures ≠ 0
  params : layer.spec.paramsKind.isWideFloating = true
  biasPresent : layer.bias.isSome = layer.spec.hasBias
  bias : ∀ bias, layer.bias = some bias → bias.shape = [layer.spec.outFeatures] ∧
    bias.kind.isWideFloating = true ∧ bias.device = layer.device
  repacked : layer.repacked = true ↔ layer.materialized = true ∧ layer.variant = .packed
  plainWeight : layer.repacked = false → layer.weight.kind = .float .f8 ∧
    layer.weight.shape = [layer.spec.outFeatures, layer.spec.inFeatures]
  packedWeight : layer.repacked = true → layer.weight.kind = .i32 ∧
    layer.weight.shape = packedShape layer.spec.outFeatures layer.spec.inFeatures ∧
    layer.weight.isContiguous = true ∧ layer.Tiled
  weightDevice : layer.weight.device = layer.device
  noPlaceholders : layer.materialized = false → layer.placeholders = 0
  scales : layer.materialized = true → ∀ role ∈ layer.required, ∃ scale,
    layer.scales.get role = .held scale ∧ scale.isContiguous = true ∧
    scale.kind.isFloating = true ∧ scale.device = layer.device ∧
    layer.variant.expectedShape (some role) layer.spec = .ok scale.shape

/-- An open layer has its weight as it was loaded. -/
theorem Layer.Sound.plain {layer : Layer} (sound : layer.Sound)
    (unready : layer.materialized = false) : layer.repacked = false := by
  rw [Bool.eq_false_iff]
  intro packed
  cases unready.symm.trans (sound.repacked.mp packed).1

/-- The tensors that a layer holds exist. -/
structure Layer.Held (layer : Layer) (mem : Memory) : Prop where
  weight : mem.Has layer.weight.toView
  bias : ∀ bias, layer.bias = some bias → mem.Has bias.toView
  scales : ∀ role scale, layer.scales.get role = .held scale → mem.Has scale.toView

theorem Layer.Held.grown {layer : Layer} {before after : Memory} (held : layer.Held before)
    (grows : before.next ≤ after.next) : layer.Held after where
  weight := held.weight.grown grows
  bias bias present := (held.bias bias present).grown grows
  scales role scale there := (held.scales role scale there).grown grows

theorem Layer.Held.later {layer : Layer} {changed : List Nat} {before after : Memory}
    (held : layer.Held before) (evolved : before.Evolves changed after) : layer.Held after :=
  held.grown evolved.grows

theorem ScaleSlot.held_of_tensor? {slot : ScaleSlot} {scale : Tensor}
    (there : slot.tensor? = some scale) : slot = .held scale := by
  cases slot with
  | held other =>
    cases there
    rfl
  | _ => cases there

section Materialized

variable {before after : Machine} {layer ready : Layer}

/-- Materializing keeps the fields of a layer in agreement. -/
theorem Readied.sound (readied : Readied before layer ready after) (sound : layer.Sound)
    (unready : layer.materialized = false) : ready.Sound := by
  have plain := sound.plain unready
  have variant : ready.variant = layer.variant := by rw [Layer.variant, readied.spec, Layer.variant]
  have required : ready.required = layer.required := by
    rw [Layer.required, Layer.required, variant, readied.spec]
  obtain ⟨weightKind, weightShape⟩ := sound.plainWeight plain
  have extents := View.extent_pair weightShape
  -- the weight is packed now exactly where it was to be packed
  have packing : ready.repacked = true ↔ layer.ToPack := by
    constructor
    · intro packed
      by_contra done
      cases ((readied.weight.kept done).2.symm.trans packed).symm.trans plain
    · exact fun pending => (readied.weight.packed pending).1
  refine
    { features := by rw [readied.spec]; exact sound.features
      params := by rw [readied.spec]; exact sound.params
      biasPresent := by rw [readied.bias, readied.spec]; exact sound.biasPresent
      bias := by rw [readied.bias, readied.spec, readied.device]; exact sound.bias
      repacked := ?_
      plainWeight := fun unpacked => ?_
      packedWeight := fun packed => ?_
      weightDevice := ?_
      noPlaceholders := fun still => by cases still.symm.trans readied.materialized
      scales := fun _ role member => ?_ }
  · rw [packing, variant]
    exact ⟨fun pending => ⟨readied.materialized, pending.1⟩, fun both => ⟨both.2, plain⟩⟩
  · have done : ¬layer.ToPack := fun pending => by
      cases (packing.mpr pending).symm.trans unpacked
    rw [(readied.weight.kept done).1, readied.spec]
    exact ⟨weightKind, weightShape⟩
  · have pending := packing.mp packed
    obtain ⟨-, form, -⟩ := readied.weight.packed pending
    have shape := form.shape
    rw [extents.1, extents.2] at shape
    rw [Layer.Tiled, readied.spec]
    exact ⟨form.kind, shape, form.layout, readied.weight.tiled pending⟩
  · rw [readied.device, ← sound.weightDevice]
    by_cases pending : layer.ToPack
    · exact (readied.weight.packed pending).2.1.device
    · rw [(readied.weight.kept pending).1]
  · rw [required] at member
    obtain ⟨scale, found, made⟩ := readied.slots.held role member
    refine ⟨scale, found, made.packed, made.floating, ?_, ?_⟩
    · rw [made.device, sound.weightDevice, readied.device]
    · rw [variant, readied.spec, made.shape, Layer.expectedShape_of_required member]

/-- Materializing keeps the tensors of a layer in existence. -/
theorem Readied.held (readied : Readied before layer ready after) (held : layer.Held before.memory)
    (followed : before.Follows [] after) : ready.Held after.memory where
  weight := by
    by_cases pending : layer.ToPack
    · exact (readied.weight.packed pending).2.2
    · rw [(readied.weight.kept pending).1]
      exact held.weight.later followed.memory
  bias bias present := (held.bias bias (readied.bias ▸ present)).later followed.memory
  scales role scale there := by
    by_cases member : role ∈ layer.required
    · -- a required scale was made up or is a copy
      obtain ⟨made, found, readyScale⟩ := readied.slots.held role member
      cases found.symm.trans there
      cases loaded : (layer.scales.get role).tensor? with
      | none => exact (readyScale.ones (by rw [Layer.lacks, loaded]; rfl)).2.1
      | some source =>
        exact (readyScale.copy source loaded).1.has
          (held.scales role source (ScaleSlot.held_of_tensor? loaded))
    · rw [readied.slots.others role member] at there
      exact (held.scales role scale there).later followed.memory

end Materialized

open QuantLinear.Action

/-- The tensor behind a handle exists. -/
def Memory.HasValue (mem : Memory) (value : Handle) : Prop :=
  ∀ tensor, value = some tensor → mem.Has tensor.toView

theorem Memory.HasValue.later {changed : List Nat} {before after : Memory} {value : Handle}
    (there : before.HasValue value) (evolved : before.Evolves changed after) :
    after.HasValue value :=
  fun tensor present => (there tensor present).later evolved

/-- A parameter that a layer may take. -/
def Parameter.Suits (layer : Layer) : Parameter → Prop
  | .weight tensor => tensor.kind = .float .f8 ∧
    tensor.shape = [layer.spec.outFeatures, layer.spec.inFeatures] ∧ tensor.device = layer.device
  | .bias tensor => layer.spec.hasBias = true ∧ tensor.shape = [layer.spec.outFeatures] ∧
    tensor.kind.isWideFloating = true ∧ tensor.device = layer.device
  | .scale _ _ => True

/-- The tensor of a parameter exists. -/
def Parameter.Held (mem : Memory) : Parameter → Prop
  | .weight tensor | .bias tensor => mem.Has tensor.toView
  | .scale _ value => mem.HasValue value

theorem Parameter.Held.later {changed : List Nat} {before after : Memory} {parameter : Parameter}
    (held : parameter.Held before) (evolved : before.Evolves changed after) :
    parameter.Held after := by
  cases parameter with
  | weight tensor => exact Memory.Has.later held evolved
  | bias tensor => exact Memory.Has.later held evolved
  | scale role value => exact Memory.HasValue.later held evolved

section Attach

variable {layer : Layer} {parameter : Parameter}

theorem Layer.attach_fixed (layer : Layer) (parameter : Parameter) :
    (layer.attach parameter).spec = layer.spec ∧ (layer.attach parameter).device = layer.device ∧
      (layer.attach parameter).materialized = layer.materialized := by
  cases parameter <;> exact ⟨rfl, rfl, rfl⟩

theorem Parameter.Suits.attach {other : Parameter} (suits : parameter.Suits layer) :
    parameter.Suits (layer.attach other) := by
  cases other <;> exact suits

/-- An open layer takes a suitable parameter and stays sound. -/
theorem Layer.Sound.attach (sound : layer.Sound) (unready : layer.materialized = false)
    (suits : parameter.Suits layer) : (layer.attach parameter).Sound := by
  have plain := sound.plain unready
  cases parameter with
  | weight tensor =>
    exact { sound with
      plainWeight := fun _ => ⟨suits.1, suits.2.1⟩
      packedWeight := fun packed => by cases plain.symm.trans packed
      weightDevice := suits.2.2 }
  | bias tensor =>
    exact { sound with
      biasPresent := suits.1.symm
      bias := fun bias present => by
        cases present
        exact suits.2 }
  | scale role value =>
    exact { sound with scales := fun done => by cases unready.symm.trans done }

theorem Layer.Held.attach {mem : Memory} (held : layer.Held mem) (there : parameter.Held mem) :
    (layer.attach parameter).Held mem := by
  cases parameter with
  | weight tensor => exact { held with weight := there }
  | bias tensor =>
    exact { held with bias := fun bias present => by cases present; exact there }
  | scale role value =>
    refine { held with scales := fun other scale found => ?_ }
    rw [Layer.attach, ScaleSlots.get_set] at found
    split at found
    · cases value with
      | none => cases found
      | some tensor =>
        cases found
        exact there scale rfl
    · exact held.scales other scale found

end Attach

private theorem Layer.checkWeight_ok {layer : Layer} {value : Handle} {tensor : Tensor}
    (checked : layer.checkWeight value = .ok tensor) : value = some tensor ∧
      tensor.kind = .float .f8 ∧
      tensor.shape = [layer.spec.outFeatures, layer.spec.inFeatures] := by
  cases value with
  | none => cases checked
  | some given =>
    simp only [Layer.checkWeight, bind_eq_ok, require_eq_ok, pure_eq_ok, beq_iff_eq] at checked
    obtain ⟨_, kind, _, shape, rfl⟩ := checked
    exact ⟨rfl, kind, shape⟩

private theorem Layer.checkBias_ok {layer : Layer} {value : Handle} {tensor : Tensor}
    (checked : layer.checkBias value = .ok tensor) : value = some tensor ∧
      layer.spec.hasBias = true ∧ tensor.shape = [layer.spec.outFeatures] ∧
      tensor.kind.isWideFloating = true := by
  simp only [Layer.checkBias, bind_eq_ok, require_eq_ok] at checked
  obtain ⟨_, asked, checked⟩ := checked
  cases value with
  | none => cases checked
  | some given =>
    simp only [bind_eq_ok, require_eq_ok, pure_eq_ok, beq_iff_eq] at checked
    obtain ⟨_, shape, _, wide, rfl⟩ := checked
    exact ⟨rfl, asked, shape, wide⟩

/-- Parameters are staged on the layer's device and fit the layer. -/
theorem ends_stage (layer : Layer) (name : String) (value : Handle) (machine : Machine) :
    (layer.stage name value).Ends machine
      (fun parameter after => machine.Follows [] after ∧ parameter.Suits layer ∧
        (machine.memory.HasValue value → parameter.Held after.memory))
      (fun _ after => machine.Follows [] after) := by
  simp only [Layer.stage, ends_bind, ends_ite, ends_pure, ends_lift]
  refine ⟨fun _ => ⟨fun tensor checked => ?_, fun _ _ => .refl _ _⟩,
    fun _ => ⟨fun _ => ⟨fun tensor checked => ?_, fun _ _ => .refl _ _⟩, fun _ => ?_⟩⟩
  · obtain ⟨given, kind, shape⟩ := Layer.checkWeight_ok checked
    refine (ends_toDevice tensor layer.device machine).mono (fun copy after made => ?_)
      fun _ _ failed => failed.1
    obtain ⟨copied, device, -⟩ := made
    exact ⟨copied.follows, ⟨copied.kind.trans kind, copied.shape.trans shape, device⟩,
      fun there => copied.has (there tensor given)⟩
  · obtain ⟨given, asked, shape, wide⟩ := Layer.checkBias_ok checked
    refine (ends_toDevice tensor layer.device machine).mono (fun copy after made => ?_)
      fun _ _ failed => failed.1
    obtain ⟨copied, device, -⟩ := made
    exact ⟨copied.follows, ⟨asked, copied.shape.trans shape, by rw [copied.kind, wide], device⟩,
      fun there => copied.has (there tensor given)⟩
  · cases ScaleRole.ofLabel? name with
    | some role => exact ⟨.refl _ _, trivial, id⟩
    | none => exact .refl _ _

/-- What loading parameters did to a layer between two machines: nothing else changed, and a layer
that was materialized is as it was. -/
structure Loaded (before : Machine) (id : LayerId) (layer later : Layer) (after : Machine) :
    Prop where
  layers : after.layers = before.layers.setIfInBounds id later
  observer : after.observer = before.observer
  memory : before.memory.Evolves [] after.memory
  spec : later.spec = layer.spec ∧ later.device = layer.device
  materialized : later.materialized = layer.materialized
  fixed : layer.materialized = true → later = layer
  sound : layer.Sound → later.Sound

theorem ends_loadParameter (id : LayerId) (name : String) (value : Handle) (machine : Machine) :
    (loadParameter id name value).Ends machine
      (fun _ after => ∃ layer later, machine.layers[id]? = some layer ∧
        Loaded machine id layer later after ∧
        (machine.memory.HasValue value → layer.Held machine.memory → later.Held after.memory))
      (fun _ after => machine.Follows [] after) := by
  simp only [loadParameter, findLayer, ends_bind, ends_get]
  cases found : machine.layers[id]? with
  | none => exact .refl _ _
  | some layer =>
    simp only [ends_pure, Layer.checkOpen, ends_require, Bool.not_eq_true', Bool.not_eq_false']
    refine ⟨fun unready => ?_, fun _ => .refl _ _⟩
    refine (ends_stage layer name value machine).mono (fun parameter after staged => ?_)
      fun _ _ failed => failed
    obtain ⟨followed, suits, there⟩ := staged
    simp only [setLayer, ends_modify]
    have fixed := layer.attach_fixed parameter
    refine ⟨layer, layer.attach parameter, rfl, ⟨by rw [followed.layers], followed.observer,
      followed.memory, ⟨fixed.1, fixed.2.1⟩, fixed.2.2, fun done => ?_,
      fun sound => sound.attach unready suits⟩, fun given held => ?_⟩
    · cases unready.symm.trans done
    · exact (held.later followed.memory).attach (there given)

/-- Parameters that were staged for a layer between two machines. -/
structure Staged (before : Machine) (layer : Layer) (values : List Handle)
    (parameters : List Parameter) (after : Machine) : Prop where
  follows : before.Follows [] after
  suits : ∀ parameter ∈ parameters, parameter.Suits layer
  unready : parameters ≠ [] → layer.materialized = false
  held : (∀ value ∈ values, before.memory.HasValue value) →
    ∀ parameter ∈ parameters, parameter.Held after.memory

theorem ends_stageAll (layer : Layer) (entries : List (String × Handle)) (machine : Machine) :
    Ends (entries.mapM fun (name, value) => do
        layer.checkOpen name
        layer.stage name value) machine
      (fun parameters after => Staged machine layer (entries.map (·.2)) parameters after)
      (fun _ after => machine.Follows [] after) := by
  -- what was staged first exists in every machine that staging the others leads to
  induction entries generalizing machine with
  | nil => exact ⟨.refl _ _, by simp, by simp, by simp⟩
  | cons entry rest ih =>
    obtain ⟨name, value⟩ := entry
    simp only [List.mapM_cons, ends_bind, Layer.checkOpen, ends_require, Bool.not_eq_true',
      Bool.not_eq_false', ends_pure]
    refine ⟨fun unready => ?_, fun _ => .refl _ _⟩
    refine (ends_stage layer name value machine).mono (fun parameter middle staged => ?_)
      fun _ _ failed => failed
    obtain ⟨followed, suits, there⟩ := staged
    refine (ih middle).mono (fun parameters after others => ?_)
      fun _ _ failed => followed.trans failed
    refine ⟨followed.trans others.follows, ?_, fun _ => unready, fun given => ?_⟩
    · intro other member
      rcases List.mem_cons.mp member with rfl | member
      · exact suits
      · exact others.suits other member
    · intro other member
      rcases List.mem_cons.mp member with rfl | member
      · exact (there (given value List.mem_cons_self)).later others.follows.memory
      · refine others.held (fun value member => ?_) other member
        exact (given value (List.mem_cons_of_mem _ member)).later followed.memory

/-- A set of suitable parameters is attached one after the other. -/
theorem Layer.Sound.attachAll {layer : Layer} {parameters : List Parameter} (sound : layer.Sound)
    (unready : layer.materialized = false) (suits : ∀ parameter ∈ parameters, parameter.Suits layer) :
    (parameters.foldl Layer.attach layer).Sound := by
  -- attaching one parameter changes neither the configuration nor what suits it
  induction parameters generalizing layer with
  | nil => exact sound
  | cons parameter rest ih =>
    exact ih (sound.attach unready (suits parameter List.mem_cons_self))
      ((layer.attach_fixed parameter).2.2.trans unready)
      fun other member => (suits other (List.mem_cons_of_mem _ member)).attach

theorem Layer.Held.attachAll {layer : Layer} {parameters : List Parameter} {mem : Memory}
    (held : layer.Held mem) (there : ∀ parameter ∈ parameters, parameter.Held mem) :
    (parameters.foldl Layer.attach layer).Held mem := by
  induction parameters generalizing layer with
  | nil => exact held
  | cons parameter rest ih =>
    exact ih (held.attach (there parameter List.mem_cons_self))
      fun other member => there other (List.mem_cons_of_mem _ member)

theorem Layer.attachAll_fixed (layer : Layer) (parameters : List Parameter) :
    (parameters.foldl Layer.attach layer).spec = layer.spec ∧
      (parameters.foldl Layer.attach layer).device = layer.device ∧
      (parameters.foldl Layer.attach layer).materialized = layer.materialized := by
  induction parameters generalizing layer with
  | nil => exact ⟨rfl, rfl, rfl⟩
  | cons parameter rest ih =>
    have same := layer.attach_fixed parameter
    rw [List.foldl_cons, ← same.1, ← same.2.1, ← same.2.2]
    exact ih (layer.attach parameter)

theorem ends_loadParameters (id : LayerId) (entries : List (String × Handle)) (machine : Machine) :
    (loadParameters id entries).Ends machine
      (fun _ after => ∃ layer later, machine.layers[id]? = some layer ∧
        Loaded machine id layer later after ∧
        ((∀ value ∈ entries.map (·.2), machine.memory.HasValue value) →
          layer.Held machine.memory → later.Held after.memory))
      (fun _ after => machine.Follows [] after) := by
  simp only [loadParameters, findLayer, ends_bind, ends_get]
  cases found : machine.layers[id]? with
  | none => exact .refl _ _
  | some layer =>
    simp only [ends_pure]
    -- Nothing is attached before everything was staged.
    refine (ends_stageAll layer entries.reverse machine).mono (fun parameters after staged => ?_)
      fun _ _ failed => failed
    simp only [setLayer, ends_modify]
    have fixed := layer.attachAll_fixed parameters
    refine ⟨layer, parameters.foldl Layer.attach layer, rfl, ⟨by rw [staged.follows.layers],
      staged.follows.observer, staged.follows.memory, ⟨fixed.1, fixed.2.1⟩, fixed.2.2,
      fun done => ?_, fun sound => ?_⟩, fun given held => ?_⟩
    · -- a materialized layer lets nothing be staged, so there is nothing to attach
      cases parameters with
      | nil => rfl
      | cons parameter rest => cases (staged.unready (by simp)).symm.trans done
    · cases parameters with
      | nil => exact sound
      | cons parameter rest => exact sound.attachAll (staged.unready (by simp)) staged.suits
    · refine (held.later staged.follows.memory).attachAll (staged.held fun value member => ?_)
      exact given value (by simpa using member)

/-- A layer that was built between two machines. -/
structure Built (before : Machine) (spec : LayerSpec) (device : Device) (layer : Layer)
    (after : Machine) : Prop where
  layers : after.layers = before.layers.push layer
  observer : after.observer = before.observer
  memory : before.memory.Evolves [] after.memory
  spec : layer.spec = spec ∧ layer.device = device
  sound : layer.Sound
  unready : layer.materialized = false
  held : layer.Held after.memory

private theorem LayerSpec.check_ok {spec : LayerSpec} {answer : Unit}
    (checked : spec.check = .ok answer) :
    (spec.inFeatures ≠ 0 ∧ spec.outFeatures ≠ 0) ∧ spec.paramsKind.isWideFloating = true := by
  simp only [LayerSpec.check, bind_eq_ok, require_eq_ok] at checked
  obtain ⟨_, features, params⟩ := checked
  exact ⟨by simpa using features, params⟩

/-- The fields of a new layer, whose weight and bias fit its configuration. -/
private theorem Layer.sound_new {spec : LayerSpec} {device : Device} {weight : Tensor}
    {bias : Option Tensor}
    (features : spec.inFeatures ≠ 0 ∧ spec.outFeatures ≠ 0)
    (params : spec.paramsKind.isWideFloating = true) (kind : weight.kind = .float .f8)
    (shape : weight.shape = [spec.outFeatures, spec.inFeatures]) (home : weight.device = device)
    (present : bias.isSome = spec.hasBias)
    (fits : ∀ tensor, bias = some tensor → tensor.shape = [spec.outFeatures] ∧
      tensor.kind.isWideFloating = true ∧ tensor.device = device) :
    Layer.Sound ⟨spec, device, weight, bias, {}, false, false, 0⟩ where
  features := features
  params := params
  biasPresent := present
  bias := fits
  repacked := by simp
  plainWeight _ := ⟨kind, shape⟩
  packedWeight packed := by cases packed
  weightDevice := home
  noPlaceholders _ := rfl
  scales done := by cases done

theorem ends_buildLayer (spec : LayerSpec) (device : Device) (machine : Machine) :
    (buildLayer spec device).Ends machine
      (fun id after => id = machine.layers.size ∧ ∃ layer, Built machine spec device layer after)
      (fun _ after => machine.Follows [] after) := by
  have none : ∀ role, ({} : ScaleSlots).get role = .absent := by
    intro role
    cases role <;> rfl
  simp only [buildLayer, ends_bind, ends_lift, zeroTensor]
  refine ⟨fun _ checked => ?_, fun _ _ => .refl _ _⟩
  obtain ⟨features, params⟩ := LayerSpec.check_ok checked
  -- A layer is added only after its weight and its bias were made.
  refine (ends_filledTensor spec.weightShape _ (.float .f8) device machine).mono
    (fun weight middle made => ?_) fun _ _ failed => failed.1
  have fresh := made.2.1
  simp only [ends_ite, ends_map, ends_bind, ends_get, ends_modify, ends_pure]
  constructor
  · intro asked
    refine (ends_filledTensor [spec.outFeatures] _ spec.paramsKind device middle).mono
      (fun bias after placed => ?_) fun _ _ failed => fresh.follows.trans failed.1
    have freshBias := placed.2.1
    have whole := fresh.follows.trans freshBias.follows
    refine ⟨by rw [whole.layers], ⟨spec, device, weight, some bias, {}, false, false, 0⟩,
      by rw [whole.layers], whole.observer, whole.memory, ⟨rfl, rfl⟩, Layer.sound_new features params
        fresh.kind_eq fresh.shape_eq fresh.device_eq asked.symm fun tensor present => ?_, rfl, ?_⟩
    · cases present
      exact ⟨freshBias.shape_eq, by rw [freshBias.kind_eq, params], freshBias.device_eq⟩
    · refine ⟨fresh.has.later freshBias.follows.memory, fun tensor present => ?_,
        fun role scale found => ?_⟩
      · cases present
        exact freshBias.has
      · cases (none role).symm.trans found
  · intro bare
    refine ⟨by rw [fresh.follows.layers],
      ⟨spec, device, weight, .none, {}, false, false, 0⟩, by rw [fresh.follows.layers],
      fresh.follows.observer, fresh.follows.memory, ⟨rfl, rfl⟩, Layer.sound_new features params
        fresh.kind_eq fresh.shape_eq fresh.device_eq (by simpa using bare)
        (fun tensor present => ?_), rfl, ?_⟩
    · cases present
    · refine ⟨fresh.has, fun tensor present => ?_, fun role scale found => ?_⟩
      · cases present
      · cases (none role).symm.trans found

end QuantLinear
