import QuantLinear.Proofs.ParameterSets

/-!
Saving the parameters of a layer and loading them into a new one.

All parameters of a layer that is not packed have passed the checks of a layer of its configuration
and are on its device, so a new layer takes them as they are. What it does not take over are slots
that were cleared and the fact that the layer was materialized. Materializing makes up for both: it
treats cleared slots like absent ones, and leaves scales that are ready as they are.
-/

namespace QuantLinear

open QuantLinear.Action Correspondence

/-- Two calls that answer with the same elements, or fail with the same text and class. -/
def SameOutcome : EStateM.Result Fault Machine Tensor → EStateM.Result Fault Machine Tensor → Prop :=
  Together
    (fun x after y later => y.kind = x.kind ∧ y.shape = x.shape ∧ y.device = x.device ∧
      later.memory.elements y.toView = after.memory.elements x.toView)
    fun fault _ other _ => fault.Alike other

section Ready

variable {layer : Layer}

/-- A scale of a layer that is left as it is when the layer is materialized. -/
def Layer.HasReady (layer : Layer) (role : ScaleRole) : Prop :=
  ∃ scale, layer.scales.get role = .held scale ∧ scale.isContiguous = true ∧
    scale.kind.isFloating = true ∧ scale.device = layer.weight.device ∧
    layer.variant.expectedShape (some role) layer.spec = .ok scale.shape

private theorem ScaleSlots.set_get (slots : ScaleSlots) (role : ScaleRole) :
    slots.set role (slots.get role) = slots := by
  cases role <;> rfl

private theorem ends_readyScale_ready {role : ScaleRole} {scale : Tensor} (machine : Machine)
    (held : layer.scales.get role = .held scale) (ready : layer.HasReady role) :
    (readyScale layer role).Ends machine
      (fun made after => made = (scale, none) ∧ after = machine) fun _ _ => False := by
  obtain ⟨known, found, dense, floating, home, expected⟩ := ready
  cases held.symm.trans found
  have there : (layer.scales.get role).tensor? = some scale := by
    rw [held]
    rfl
  simp only [readyScale, ends_bind, expected, ends_ok, there, BEq.rfl, floating, home, ends_require,
    contiguousTensor, dense, if_true, ends_pure, forall_const, Bool.true_eq_false,
    IsEmpty.forall_iff, and_self]

private theorem ends_readyScales_ready (machine : Machine) (roles : List ScaleRole)
    (ready : ∀ role ∈ roles, layer.HasReady role) :
    (readyScales layer layer.scales roles).Ends machine
      (fun made after => made = (layer.scales, []) ∧ after = machine) fun _ _ => False := by
  induction roles with
  | nil => exact ⟨rfl, rfl⟩
  | cons role rest ih =>
    have first := ready role List.mem_cons_self
    obtain ⟨scale, held, -⟩ := id first
    simp only [readyScales, ends_bind, ends_pure]
    refine (ends_readyScale_ready machine held first).mono (fun made after ended => ?_)
      fun _ _ none => none
    obtain ⟨rfl, rfl⟩ := ended
    rw [← held, ScaleSlots.set_get]
    refine (ih fun other member => ready other (List.mem_cons_of_mem _ member)).mono
      (fun slots last ended => ?_) fun _ _ none => none
    obtain ⟨rfl, rfl⟩ := ended
    exact ⟨rfl, rfl⟩

/-- A layer with all scales ready and no weight to pack is materialized as it is. -/
private theorem ends_materialized_ready (machine : Machine)
    (ready : ∀ role ∈ layer.required, layer.HasReady role) (done : ¬layer.ToPack) :
    (materialized layer).Ends machine
      (fun made after => made = ({ layer with materialized := true }, []) ∧ after = machine)
      fun _ _ => False := by
  simp only [materialized, ends_bind, ends_pure]
  refine (ends_readyScales_ready machine _ ready).mono (fun made after ended => ?_)
    fun _ _ none => none
  obtain ⟨rfl, rfl⟩ := ended
  have plain : ¬(layer.variant = .packed ∧ (!layer.repacked) = true) := by
    simpa [Layer.ToPack] using done
  simp only [readyWeight, if_neg plain, ends_pure, List.length_nil, Nat.add_zero, and_self]

end Ready

section Forward

variable {c : Correspondence} {machine other : Machine} {id twin : LayerId} {layer same : Layer}

/-- Machines of two runs, each with a layer in its place. -/
structure Beside (c : Correspondence) (id : LayerId) (layer : Layer) (twin : LayerId) (same : Layer)
    (machine other : Machine) : Prop where
  machines : c.Machines machine other
  layers : c.Layers layer same
  there : machine.layers[id]? = some layer
  known : other.layers[twin]? = some same

/-- An open layer is materialized alike in two runs. -/
private theorem ensureMaterialized_together (beside : Beside c id layer twin same machine other)
    (accepts : ∀ seen report, machine.observer.takes seen report = true)
    (permits : ∀ seen report, other.observer.takes seen report = true)
    (unready : layer.materialized = false) (still : same.materialized = false) :
    Together (fun _ after _ later => ∃ ready again, Beside c id ready twin again after later)
      (fun fault _ other _ => fault.Alike other) (ensureMaterialized id machine)
      (ensureMaterialized twin other) := by
  rw [ensureMaterialized_eq beside.there unready, ensureMaterialized_eq beside.known still]
  refine Together.bind (((parallel_materialized beside.layers machine other beside.machines).and_ends
    (ends_materialized layer machine) (ends_materialized same other)).mono
      (fun _ _ _ _ made => made) fun _ _ _ _ failed => failed.1) ?_
  rintro made prepared again later ⟨⟨layers, machines⟩, ⟨followed, -⟩, follows, -⟩
  refine (Together.of_ends
    (ends_commit (by rw [followed.layers, beside.there]) (by rwa [followed.observer]) made.1 made.2)
    (ends_commit (by rw [follows.layers, beside.known]) (by rwa [follows.observer]) again.1
      again.2)).mono (fun _ after _ final ended => ?_) fun _ _ _ _ none => none
  obtain ⟨⟨found, runtimes, kernels, memory⟩, known, runs, tables, contents⟩ := ended
  refine ⟨made.1, again.1, ⟨?_, ?_, ?_⟩, layers, found, known⟩
  · rw [runs, runtimes, machines.runtimes]
  · rw [tables, kernels, machines.kernels]
  · rw [memory, contents]
    exact machines.memory

/-- A layer that was materialized before one of two runs is materialized as it is in the other. -/
private theorem ensureMaterialized_beside (beside : Beside c id layer twin same machine other)
    (permits : ∀ seen report, other.observer.takes seen report = true)
    (ready : layer.materialized = true) (still : same.materialized = false)
    (complete : ∀ role ∈ same.required, same.HasReady role) (done : ¬same.ToPack) :
    Together (fun _ after _ later => ∃ ready again, Beside c id ready twin again after later)
      (fun fault _ other _ => fault.Alike other) (ensureMaterialized id machine)
      (ensureMaterialized twin other) := by
  obtain ⟨made, after, ran, rfl, rfl⟩ := (ends_materialized_ready other complete done).returned
  obtain ⟨⟨⟩, later, committed, known, runtimes, kernels, memory⟩ :=
    (ends_commit beside.known permits { same with materialized := true } []).returned
  have again : ensureMaterialized twin after = .ok () later := by
    rw [ensureMaterialized_eq beside.known still, bind_answered ran]
    exact committed
  rw [ensureMaterialized_again beside.there ready, again]
  refine ⟨layer, { same with materialized := true }, ⟨?_, ?_, ?_⟩, { beside.layers with },
    beside.there, known⟩
  · rw [runtimes, beside.machines.runtimes]
  · rw [kernels, beside.machines.kernels]
  · rw [memory]
    exact beside.machines.memory

private theorem applyLayer_together (beside : Beside c id layer twin same machine other)
    (ensured : Together
      (fun _ after _ later => ∃ ready again, Beside c id ready twin again after later)
      (fun fault _ other _ => fault.Alike other) (ensureMaterialized id machine)
      (ensureMaterialized twin other)) {activation : Handle}
    (given : ∀ x, activation = some x → c.Tensors x x) :
    SameOutcome (applyLayer id activation machine) (applyLayer twin activation other) := by
  rw [applyLayer, applyLayer, findLayer_bind beside.there, findLayer_bind beside.known,
    beside.layers.variant, beside.layers.device]
  refine Together.bind (((parallel_checkKernels layer.variant layer.device machine other
    beside.machines).and_ends (ends_checkKernels ..) (ends_checkKernels ..)).mono
      (fun _ _ _ _ checked => checked.2) fun _ _ _ _ failed => failed.1) ?_
  rintro _ _ _ _ ⟨rfl, rfl⟩
  refine Together.bind ensured ?_
  rintro _ after _ later ⟨ready, again, both⟩
  -- what is multiplied with are the layers that materializing left
  rw [findLayer_bind both.there, findLayer_bind both.known]
  have multiplied : Parallel c.actions c.Tensors
      (do let x ← ready.checkActivation activation; ready.product x)
      (do let x ← again.checkActivation activation; again.product x) := by
    refine (parallel_lift (accord_checkActivation both.layers activation)).bind fun x _ taken => ?_
    obtain ⟨rfl, present⟩ := taken
    exact parallel_product both.layers (given _ present)
  refine (multiplied after later both.machines).mono (fun x _ y _ answered => ?_)
    fun _ _ _ _ failed => failed.1
  obtain ⟨⟨storage, handle, rfl, paired⟩, machines⟩ := answered
  exact ⟨rfl, rfl, rfl, machines.memory.elements paired⟩

end Forward

section Restore

/-- A parameter under its name. -/
def Parameter.entry : Parameter → String × Handle
  | .weight tensor => ("weight", some tensor)
  | .bias tensor => ("bias", some tensor)
  | .scale role value => (role.label, value)

/-- The parameters of a layer that hold a tensor, as they are handed to another layer. -/
def Layer.saved (layer : Layer) : List (String × Handle) :=
  layer.parameters.map fun (name, tensor) => (name, some tensor)

/-- The scale of a slot as a parameter, where the slot holds one. -/
def ScaleSlots.parameter? (slots : ScaleSlots) (role : ScaleRole) : Option Parameter :=
  (slots.get role).tensor?.map fun scale => .scale role (some scale)

/-- The parameters of a layer that hold a tensor. -/
def Layer.ownParameters (layer : Layer) : List Parameter :=
  .weight layer.weight :: (layer.bias.map Parameter.bias).toList
    ++ ScaleRole.all.filterMap layer.scales.parameter?

private theorem Layer.saved_eq (layer : Layer) : layer.saved = layer.ownParameters.map (·.entry) := by
  simp only [saved, parameters, ownParameters, ScaleSlots.parameter?, List.map_cons, List.map_append,
    List.map_filterMap, ← Option.toList_map, Option.map_map]
  rfl

/-- A slot as it comes back: one that was cleared is absent. -/
def ScaleSlot.refilled : ScaleSlot → ScaleSlot
  | .held scale => .held scale
  | _ => .absent

@[simp] theorem ScaleSlot.tensor?_refilled (slot : ScaleSlot) :
    slot.refilled.tensor? = slot.tensor? := by
  cases slot <;> rfl

/-- The layer that a new layer becomes when the parameters of a layer are loaded into it. -/
def Layer.restored (layer : Layer) : Layer where
  spec := layer.spec
  device := layer.device
  weight := layer.weight
  bias := layer.bias
  scales := ⟨layer.scales.weight.refilled, layer.scales.weightInverse.refilled,
    layer.scales.input.refilled⟩
  repacked := false
  materialized := false
  placeholders := 0

variable {layer : Layer}

private theorem Layer.restored_scales (layer : Layer) (role : ScaleRole) :
    layer.restored.scales.get role = (layer.scales.get role).refilled := by
  cases role <;> rfl

/-- The restored layer has the parameters of the layer, handle by handle. -/
private theorem Layer.restored_parameters (layer : Layer) :
    layer.restored.parameters = layer.parameters := by
  simp only [parameters, restored_scales, ScaleSlot.tensor?_refilled]
  rfl

private theorem Layer.attachAll_own (layer : Layer) {weight : Tensor} {bias : Option Tensor}
    (bare : layer.bias = none → bias = none) :
    layer.ownParameters.foldl attach (.blank layer.spec layer.device weight bias) =
      layer.restored := by
  obtain ⟨spec, device, own, held, ⟨first, second, third⟩, repacked, materialized, count⟩ := layer
  have scales (bias : Option Tensor) : (ScaleRole.all.filterMap
      (ScaleSlots.parameter? ⟨first, second, third⟩)).foldl attach
        (.blank spec device own bias) =
      ⟨spec, device, own, bias, ⟨first.refilled, second.refilled, third.refilled⟩, false, false, 0⟩ := by
    -- a slot without a scale is no parameter and stays absent
    cases first <;> cases second <;> cases third <;> rfl
  cases held with
  | none =>
    rw [bare rfl]
    exact scales none
  | some tensor => exact scales (some tensor)

private theorem ScaleSlots.names_sublist (slots : ScaleSlots) (roles : List ScaleRole) :
    ((roles.filterMap slots.parameter?).map (·.name)).Sublist (roles.map (·.label)) := by
  induction roles with
  | nil => exact .slnil
  | cons role rest ih =>
    cases found : (slots.get role).tensor? with
    | none =>
      rw [List.filterMap_cons_none (by rw [parameter?, found]; rfl)]
      exact ih.cons _
    | some scale =>
      rw [List.filterMap_cons_some (by rw [parameter?, found]; rfl)]
      exact ih.cons_cons _

private theorem Layer.ownParameters_distinct (layer : Layer) :
    (layer.ownParameters.map (·.name)).Nodup := by
  have bias : ((layer.bias.map Parameter.bias).toList.map (·.name)).Sublist ["bias"] := by
    cases layer.bias with
    | none => exact List.nil_sublist _
    | some bias => exact .refl _
  have names : (layer.ownParameters.map (·.name)).Sublist
      ("weight" :: (["bias"] ++ ScaleRole.all.map (·.label))) := by
    rw [ownParameters, List.map_append, List.map_cons]
    exact (bias.append (layer.scales.names_sublist _)).cons_cons _
  exact names.nodup (by decide)

private theorem toDevice_home {tensor : Tensor} {device : Device} (home : tensor.device = device)
    (machine : Machine) : toDevice tensor device machine = .ok tensor machine := by
  rw [toDevice, if_pos home.symm]
  rfl

/-- A parameter that suits a layer is staged as it is, without a copy. -/
private theorem stage_entry {parameter : Parameter} (suits : parameter.Suits layer)
    (machine : Machine) :
    layer.stage parameter.entry.1 parameter.entry.2 machine = .ok parameter machine := by
  cases parameter with
  | weight tensor =>
    obtain ⟨kind, shape, home⟩ := suits
    have passed : layer.checkWeight (some tensor) = .ok tensor := by
      simp only [Layer.checkWeight, LayerSpec.weightShape, kind, shape, BEq.rfl, require]
      rfl
    exact (bind_answered (lift_answered passed machine) _).trans
      (bind_answered (toDevice_home home machine) _)
  | bias tensor =>
    obtain ⟨asked, shape, wide, home⟩ := suits
    have passed : layer.checkBias (some tensor) = .ok tensor := by
      simp only [Layer.checkBias, asked, shape, wide, BEq.rfl, require]
      rfl
    exact (bind_answered (lift_answered passed machine) _).trans
      (bind_answered (toDevice_home home machine) _)
  | scale role value => cases role <;> rfl

private theorem Layer.Sound.own_suits {fresh : Layer} (sound : layer.Sound)
    (plain : layer.repacked = false)
    (spec : fresh.spec = layer.spec) (device : fresh.device = layer.device) {parameter : Parameter}
    (own : parameter ∈ layer.ownParameters) : parameter.Suits fresh := by
  obtain ⟨kind, shape⟩ := sound.plainWeight plain
  simp only [ownParameters, List.cons_append, List.mem_cons, List.mem_append, Option.mem_toList,
    Option.map_eq_some_iff, List.mem_filterMap, ScaleSlots.parameter?] at own
  rcases own with rfl | ⟨bias, present, rfl⟩ | ⟨role, -, scale, -, rfl⟩
  · exact ⟨kind, by rw [shape, spec], by rw [sound.weightDevice, device]⟩
  · have asked := sound.biasPresent
    obtain ⟨shape, wide, home⟩ := sound.bias bias present
    rw [present] at asked
    exact ⟨by rw [spec, ← asked]; rfl, by rw [shape, spec], wide, by rw [home, device]⟩
  · trivial

private theorem ends_stageAll_entries {parameters : List Parameter}
    (suits : ∀ parameter ∈ parameters, parameter.Suits layer) (machine : Machine) :
    Ends ((parameters.map (·.entry)).mapM fun (name, value) => layer.stage name value) machine
      (fun staged after => staged = parameters ∧ after = machine) fun _ _ => False := by
  induction parameters with
  | nil => exact ⟨rfl, rfl⟩
  | cons parameter rest ih =>
    have first := stage_entry (suits parameter List.mem_cons_self) machine
    have others := ih fun other member => suits other (List.mem_cons_of_mem _ member)
    simp only [List.map_cons, List.mapM_cons, ends_bind, ends_pure]
    simp only [Ends, first]
    refine others.mono (fun staged after same => ?_) fun _ _ none => none
    exact ⟨by rw [same.1], same.2⟩

/-- What the parameters of a layer make of a new layer of its configuration. -/
private theorem loadParameters_saved {machine : Machine} {copy : LayerId} {weight : Tensor}
    {bias : Option Tensor} {entries : List (String × Handle)} (sound : layer.Sound)
    (plain : layer.repacked = false) (bare : layer.bias = none → bias = none)
    (fresh : machine.layers[copy]? = some (.blank layer.spec layer.device weight bias))
    (saved : entries.Perm layer.saved) :
    loadParameters copy entries machine = .ok () (machine.withLayer copy layer.restored) := by
  rw [layer.saved_eq] at saved
  have reversed := (List.reverse_perm entries).trans saved
  -- the parameters in the order in which they are staged
  obtain ⟨listed, same, perm⟩ : ∃ listed : List Parameter,
      entries.reverse = listed.map (·.entry) ∧ listed.Perm layer.ownParameters :=
    (congrFun₂ (List.eq_map_comp_perm Parameter.entry) _ _).mpr reversed
  have distinct : (listed.map (·.name)).Nodup :=
    (perm.map _).nodup_iff.mpr layer.ownParameters_distinct
  have suits : ∀ parameter ∈ listed,
      parameter.Suits (.blank layer.spec layer.device weight bias) := fun parameter member =>
    sound.own_suits plain rfl rfl (perm.subset member)
  obtain ⟨staged, after, ran, rfl, rfl⟩ := (ends_stageAll_entries suits machine).returned
  rw [loadParameters_open fresh rfl, same, bind_answered ran, Layer.attachAll_perm _ perm distinct,
    layer.attachAll_own bare]
  rfl

/-- Loading leaves a layer as good as the one that was saved. -/
private theorem Layer.Held.restored {c : Correspondence} {mem : Memory} (held : layer.Held mem)
    (plain : layer.repacked = false) (known : ∀ x : Tensor, mem.Has x.toView → c.Tensors x x) :
    c.Layers layer layer.restored where
  spec := rfl
  device := rfl
  weight := known _ held.weight
  bias := by
    cases present : layer.bias with
    | none => simpa only [Layer.restored, present] using .none
    | some bias => simpa only [Layer.restored, present] using .some (known _ (held.bias bias present))
  scales role := by
    rw [layer.restored_scales, ScaleSlot.tensor?_refilled]
    cases present : (layer.scales.get role).tensor? with
    | none => exact .none
    | some scale => exact .some (known _ (held.scales role scale (ScaleSlot.held_of_tensor? present)))
  repacked := plain.symm

/-- The scales of a materialized layer are ready in the restored one. -/
private theorem Layer.Sound.restored_ready (sound : layer.Sound) (done : layer.materialized = true)
    (role : ScaleRole) (member : role ∈ layer.restored.required) : layer.restored.HasReady role := by
  obtain ⟨scale, found, dense, floating, home, expected⟩ := sound.scales done role member
  refine ⟨scale, ?_, dense, floating, home.trans sound.weightDevice.symm, expected⟩
  rw [layer.restored_scales, found]
  rfl

private theorem Layer.Sound.restored_done (sound : layer.Sound) (done : layer.materialized = true)
    (plain : layer.repacked = false) : ¬layer.restored.ToPack := fun pending => by
  cases plain.symm.trans (sound.repacked.mpr ⟨done, pending.1⟩)

/-- A layer and the one that was restored from it are applied alike. -/
private theorem applyLayer_restored {now left right : Machine} {id copy : LayerId} {activation : Handle}
    (sound : layer.Sound) (held : layer.Held now.memory) (plain : layer.repacked = false)
    (first : now.Extends left) (second : now.Extends right)
    (there : left.layers[id]? = some layer) (known : right.layers[copy]? = some layer.restored)
    (accepts : ∀ seen report, left.observer.takes seen report = true)
    (permits : ∀ seen report, right.observer.takes seen report = true)
    (given : now.memory.HasValue activation) :
    SameOutcome (applyLayer id activation left) (applyLayer copy activation right) := by
  have beside : Beside (since first.memory second.memory) id layer copy layer.restored left right :=
    { machines := machines_since first second
      layers := held.restored plain fun x exists_ => tensors_since first second exists_.stored
      there := there
      known := known }
  refine applyLayer_together beside ?_ fun x present =>
    tensors_since first second (given x present).stored
  cases done : layer.materialized with
  | false => exact ensureMaterialized_together beside accepts permits done rfl
  | true =>
    -- the scales that were made ready once need nothing done to them again
    exact ensureMaterialized_beside beside permits done rfl (sound.restored_ready done)
      (sound.restored_done done plain)

end Restore

/-- The parameters of a layer that is not packed can be saved and loaded into a new layer of its
configuration and device, in any order. The new layer then has the same parameters, handle by
handle, and from one state on the two layers answer any activation with the same elements or fail
with the same text. -/
theorem parameters_round_trip {machine before first : Machine} {id copy : LayerId} {layer : Layer}
    {entries : List (String × Handle)} (reachable : machine.Reachable)
    (there : machine.layers[id]? = some layer) (plain : layer.repacked = false)
    (built : buildLayer layer.spec layer.device before = .ok copy first)
    (untouched : machine.layers[copy]? = first.layers[copy]?)
    (saved : entries.Perm layer.saved) :
    ∃ loaded restored, loadParameters copy entries machine = .ok () loaded ∧
      loaded = machine.withLayer copy restored ∧ loaded.layers[copy]? = some restored ∧
      restored.parameters = layer.parameters ∧
      ∀ (now left right : Machine) (activation : Handle),
        loaded.memory.next ≤ now.memory.next → now.memory.HasValue activation →
        now.Extends left → left.layers[id]? = some layer →
        now.Extends right → right.layers[copy]? = some restored →
        (∀ seen report, left.observer.takes seen report = true) →
        (∀ seen report, right.observer.takes seen report = true) →
        SameOutcome (applyLayer id activation left) (applyLayer copy activation right) := by
  have sound := reachable.sound id layer there
  have held := reachable.holds id layer there
  obtain ⟨rfl, weight, bias, staged, asked, followed, rfl⟩ :=
    (ends_buildLayer_added layer.spec layer.device before).answer built
  have new : machine.layers[before.layers.size]? =
      some (.blank layer.spec layer.device weight bias) := by
    rw [untouched, ← followed.layers, Array.getElem?_push_size]
  -- the bias that the new layer was built with is replaced, or there is none on either side
  have bare (none : layer.bias = none) : bias = .none := by
    rw [← sound.biasPresent, none] at asked
    simpa using asked
  have inside : before.layers.size < machine.layers.size := (Array.getElem?_eq_some_iff.mp new).1
  refine ⟨_, layer.restored, loadParameters_saved sound plain bare new saved, rfl, ?_,
    layer.restored_parameters, ?_⟩
  · simp [Machine.withLayer, inside]
  · intro now left right activation later given first left_there second right_there accepts permits
    exact applyLayer_restored sound (held.grown later) plain first second left_there right_there
      accepts permits given

/-- The configuration of a layer of one output. -/
def LayerSpec.narrow : LayerSpec := { inFeatures := 2, outFeatures := 1 }

/-- Writes a weight and adds two numbers for activations. -/
def Memory.primed (mem : Memory) : Memory :=
  (mem.writeBytes 0 0 [0x38, 0x40]).allocate #[0, 0, 0x80, 0x3F, 0, 0, 0, 0x40]

/-- Two layers of one configuration, the first of them materialized. -/
def Machine.twins : Machine :=
  Machine.initial.after
    [.build .narrow .host, .build .narrow .host, .materialize 0, .tensors Memory.primed]

def Tensor.twoNumbers : Tensor where
  kind := .float .f32
  shape := [1, 2]
  strides := [2, 1]
  storage := 3
  offset := 0
  device := .host
  handle := 3

theorem parameters_round_trip_twins : ∃ layer loaded restored,
    Machine.twins.layers[0]? = some layer ∧
      loadParameters 1 layer.saved .twins = .ok () loaded ∧
      loaded.layers[1]? = some restored ∧ restored.parameters = layer.parameters ∧
      SameOutcome (applyLayer 0 (some .twoNumbers) loaded) (applyLayer 1 (some .twoNumbers) loaded) := by
  have known : Machine.twins.layers[0]?.any (fun layer =>
      layer.spec = .narrow ∧ layer.device = .host ∧ layer.repacked = false) = true := by decide +kernel
  obtain ⟨layer, there, fields⟩ := (Option.any_eq_true _ _).mp known
  obtain ⟨spec, device, plain⟩ := of_decide_eq_true fields
  have reachable : Machine.twins.Reachable := by
    have prepared := ((Machine.Reachable.initial.step (.build .narrow .host) trivial).step
      (.build .narrow .host) trivial).step (.materialize 0) trivial
    refine prepared.step (.tensors Memory.primed) ?_
    exact (Memory.evolves_writeBytes _ _ _ _).grows.trans (Memory.evolves_allocate _ _).grows
  have built : buildLayer layer.spec layer.device
      (Machine.initial.after [.build .narrow .host]) = .ok 1
        (Machine.initial.after [.build .narrow .host, .build .narrow .host]) := by
    rw [spec, device]
    rfl
  obtain ⟨loaded, restored, ran, same, found, parameters, outcome⟩ :=
    parameters_round_trip reachable there plain built (by rfl) (.refl layer.saved)
  refine ⟨layer, loaded, restored, there, ran, found, parameters, ?_⟩
  refine outcome loaded loaded loaded (some .twoNumbers) (Nat.le_refl _) ?_ (.refl _) ?_ (.refl _) found
    ?_ ?_
  · rw [same]
    intro x present
    cases present
    have here : Machine.twins.memory.Has Tensor.twoNumbers.toView :=
      ⟨by decide +kernel, by decide +kernel⟩
    exact here
  · rw [same]
    exact there
  · rw [same]
    exact fun _ _ => rfl
  · rw [same]
    exact fun _ _ => rfl

end QuantLinear
