import QuantLinear.Proofs.Forward.Apply

/-!
Runs of programs.

A program builds layers, loads parameters into them, materializes and applies them, and works on its
own tensors, runtimes, kernels and observers, in any order and whether its calls succeed or fail.
One call moves each layer forward at most (`Layer.Advance`), so what holds of new layers and is kept
on the way holds of all layers of every run.
-/

namespace QuantLinear

open QuantLinear.Action

inductive Command where
  | build (spec : LayerSpec) (device : Device)
  | load (id : LayerId) (name : String) (value : Handle)
  | loadAll (id : LayerId) (entries : List (String × Handle))
  | materialize (id : LayerId)
  | apply (id : LayerId) (activation : Handle)
  | registerRuntime (type : DeviceType) (remove : Bool)
  | changeKernels (change : KernelTable → KernelTable)
  | observe (observer : Observer)
  | takeReports
  /-- Work on tensors that may write to any storage, those of layers included. -/
  | tensors (change : Memory → Memory)

namespace Command

def run : Command → Action Unit
  | .build spec device => do
    let _ ← buildLayer spec device
  | .load id name value => loadParameter id name value
  | .loadAll id entries => loadParameters id entries
  | .materialize id => ensureMaterialized id
  | .apply id activation => do
    let _ ← applyLayer id activation
  | .registerRuntime type remove => QuantLinear.registerRuntime type remove
  | .changeKernels change => QuantLinear.changeKernels change
  | .observe observer => setObserver observer
  | .takeReports => do
    let _ ← QuantLinear.takeReports
  | .tensors change => modifyMemory change

/-- Whether the tensors that a call hands to a layer exist, and storages stay. -/
def Given (machine : Machine) : Command → Prop
  | .load _ _ value => machine.memory.HasValue value
  | .loadAll _ entries => ∀ value ∈ entries.map (·.2), machine.memory.HasValue value
  | .tensors change => machine.memory.next ≤ (change machine.memory).next
  | _ => True

/-- Whether a call loads nothing into a layer and writes to none of its numbers. -/
def Spares (machine : Machine) (id : LayerId) : Command → Prop
  | .load other _ _ | .loadAll other _ => other ≠ id
  | .tensors change => ∀ layer, machine.layers[id]? = some layer →
    layer.numbers (change machine.memory) = layer.numbers machine.memory
  | _ => True

end Command

namespace Machine

/-- The machine after a call, whether the call succeeded or failed. -/
def step (machine : Machine) (command : Command) : Machine :=
  match command.run machine with
  | .ok _ after => after
  | .error _ after => after

def after (machine : Machine) (commands : List Command) : Machine := commands.foldl step machine

/-- The tensors of all layers exist. -/
def Holds (machine : Machine) : Prop :=
  ∀ (id : LayerId) (layer : Layer), machine.layers[id]? = some layer → layer.Held machine.memory

end Machine

/-- What may become of a layer: its configuration and its device stay, a materialized layer stays as
it is, and fields that agree go on to agree. -/
structure Layer.Advance (layer later : Layer) : Prop where
  spec : later.spec = layer.spec
  device : later.device = layer.device
  fixed : layer.materialized = true → later = layer
  sound : layer.Sound → later.Sound

namespace Layer.Advance

theorem refl (layer : Layer) : Layer.Advance layer layer := ⟨rfl, rfl, fun _ => rfl, id⟩

theorem trans {layer middle later : Layer} (first : Layer.Advance layer middle)
    (second : Layer.Advance middle later) : Layer.Advance layer later where
  spec := second.spec.trans first.spec
  device := second.device.trans first.device
  fixed done := by
    have same := first.fixed done
    subst same
    exact second.fixed done
  sound agrees := second.sound (first.sound agrees)

end Layer.Advance

/-- A layer whose numbers can be read: its fields agree, its tensors exist and their sizes do not
wrap. -/
structure Layer.Readable (layer : Layer) (mem : Memory) : Prop where
  sound : layer.Sound
  held : layer.Held mem
  fits : layer.spec.Fits
  scales : layer.materialized = false → ∀ role ∈ layer.required,
    ∀ scale, layer.scales.get role = .held scale → scale.Fits

/-- What one call does to the layers of a machine. -/
structure Stepped (command : Command) (before after : Machine) : Prop where
  layers : ∀ (id : LayerId) (layer : Layer), before.layers[id]? = some layer →
    ∃ later, after.layers[id]? = some later ∧ layer.Advance later
  built : ∀ (id : LayerId) (layer : Layer), before.layers[id]? = none →
    after.layers[id]? = some layer → layer.Sound
  holds : command.Given before → before.Holds → after.Holds
  numbers : ∀ (id : LayerId) (layer : Layer), before.layers[id]? = some layer →
    command.Given before → command.Spares before id → layer.Readable before.memory →
    ∃ later, after.layers[id]? = some later ∧ later.spec = layer.spec ∧
      later.Readable after.memory ∧
      LayerNumbers.Agree layer.spec (later.numbers after.memory) (layer.numbers before.memory)

namespace Stepped

variable {command : Command} {before after : Machine}

/-- Calls that change no layer and write to no storage. -/
private theorem of_quiet (same : after.layers = before.layers)
    (evolved : before.memory.Evolves [] after.memory) : Stepped command before after where
  layers id layer there := ⟨layer, by rw [same, there], .refl layer⟩
  built id layer none there := by
    rw [same, none] at there
    cases there
  holds _ held id layer there := by
    rw [same] at there
    exact (held id layer there).later evolved
  numbers id layer there _ _ readable := by
    refine ⟨layer, by rw [same, there], rfl,
      { readable with held := readable.held.later evolved }, ?_⟩
    rw [Layer.numbers_later readable.held evolved]
    exact .refl _ _

/-- Calls that change one layer and write to no storage that was there. -/
private theorem of_set {id : LayerId} {layer later : Layer} (there : before.layers[id]? = some layer)
    (changed : after.layers = before.layers.setIfInBounds id later)
    (evolved : before.memory.Evolves [] after.memory) (advance : layer.Advance later)
    (held : command.Given before → layer.Held before.memory → later.Held after.memory)
    (numbers : command.Spares before id → layer.Readable before.memory →
      later.Readable after.memory ∧
        LayerNumbers.Agree layer.spec (later.numbers after.memory) (layer.numbers before.memory)) :
    Stepped command before after := by
  have now (other : LayerId) : after.layers[other]? =
      if id = other then some later else before.layers[other]? := by
    obtain ⟨inside, -⟩ := Array.getElem?_eq_some_iff.mp there
    rw [changed, Array.getElem?_setIfInBounds, if_pos inside]
  -- Each clause is one about the layer that changed and one about those that did not.
  refine ⟨fun other before_layer found => ?_, fun other after_layer none found => ?_,
    fun given all other after_layer found => ?_, fun other before_layer found _ spares readable => ?_⟩
  · rw [now]
    split
    · next same =>
      subst same
      cases there.symm.trans found
      exact ⟨later, rfl, advance⟩
    · exact ⟨before_layer, found, .refl _⟩
  · rw [now] at found
    split at found
    · next same =>
      subst same
      cases there.symm.trans none
    · cases none.symm.trans found
  · rw [now] at found
    split at found
    · cases found
      exact held given (all id layer there)
    · exact (all other after_layer found).later evolved
  · rw [now]
    split
    · next same =>
      subst same
      cases there.symm.trans found
      obtain ⟨readable, agree⟩ := numbers spares readable
      exact ⟨later, rfl, advance.spec, readable, agree⟩
    · refine ⟨before_layer, found, rfl, { readable with held := readable.held.later evolved }, ?_⟩
      rw [Layer.numbers_later readable.held evolved]
      exact .refl _ _

/-- Calls that have a layer materialized. -/
private theorem of_ensured {id : LayerId} {layer ready : Layer} {middle : Machine}
    (there : before.layers[id]? = some layer) (ensured : Ensured before id layer ready middle)
    (followed : middle.Follows [] after) : Stepped command before after := by
  have evolved := ensured.memory.trans followed.memory
  refine of_set there (followed.layers.trans (ensured.layers there)) evolved
    ⟨ensured.spec.1, ensured.spec.2, fun done => ?_, ensured.sound⟩
    (fun _ held => (ensured.held held).later followed.memory) fun _ readable => ?_
  · rcases ensured with ⟨-, same, -⟩ | ⟨unready, -⟩
    · exact same
    · cases unready.symm.trans done
  · have held := ensured.held readable.held
    refine ⟨⟨ensured.sound readable.sound, held.later followed.memory, ?_, ?_⟩, ?_⟩
    · rw [ensured.spec.1]
      exact readable.fits
    · intro unready
      cases unready.symm.trans ensured.materialized
    · rw [Layer.numbers_later held followed.memory]
      exact ensured.numbers readable.sound readable.held readable.fits readable.scales

/-- Calls that leave behind what a call on a layer may. -/
private theorem of_touched {id : LayerId} (touched : Touched before id after) :
    Stepped command before after := by
  rcases touched with followed | ⟨layer, ready, middle, there, ensured, followed⟩
  · exact .of_quiet followed.layers followed.memory
  · exact .of_ensured there ensured followed

private theorem of_loaded {id : LayerId} {layer later : Layer} (there : before.layers[id]? = some layer)
    (loaded : Loaded before id layer later after)
    (held : command.Given before → layer.Held before.memory → later.Held after.memory)
    (loads : ¬command.Spares before id) : Stepped command before after :=
  of_set there loaded.layers loaded.memory ⟨loaded.spec.1, loaded.spec.2, loaded.fixed, loaded.sound⟩
    held fun spares => absurd spares loads

private theorem of_built {spec : LayerSpec} {device : Device} {layer : Layer}
    (built : Built before spec device layer after) : Stepped command before after := by
  have now (other : LayerId) : after.layers[other]? =
      if other = before.layers.size then some layer else before.layers[other]? := by
    rw [built.layers, Array.getElem?_push]
  have old {other : LayerId} {known : Layer} (found : before.layers[other]? = some known) :
      after.layers[other]? = some known := by
    obtain ⟨inside, -⟩ := Array.getElem?_eq_some_iff.mp found
    rw [now, if_neg (Nat.ne_of_lt inside), found]
  refine ⟨fun other known found => ⟨known, old found, .refl _⟩, fun other known none found => ?_,
    fun _ all other known found => ?_, fun other known found _ _ readable => ?_⟩
  · rw [now] at found
    split at found
    · cases found
      exact built.sound
    · cases none.symm.trans found
  · rw [now] at found
    split at found
    · cases found
      exact built.held
    · exact (all other known found).later built.memory
  · refine ⟨known, old found, rfl, { readable with held := readable.held.later built.memory }, ?_⟩
    rw [Layer.numbers_later readable.held built.memory]
    exact .refl _ _

end Stepped

/-- One call takes every layer a step further at most. -/
theorem Command.ends_run (command : Command) (machine : Machine) :
    command.run.Ends machine (fun _ after => Stepped command machine after)
      (fun _ after => Stepped command machine after) := by
  cases command with
  | build spec device =>
    simp only [run, ends_bind, ends_pure]
    refine (ends_buildLayer spec device machine).mono (fun _ after built => ?_)
      fun _ after followed => .of_quiet followed.layers followed.memory
    obtain ⟨-, layer, built⟩ := built
    exact .of_built built
  | load id name value =>
    refine (ends_loadParameter id name value machine).mono (fun _ after loaded => ?_)
      fun _ after followed => .of_quiet followed.layers followed.memory
    obtain ⟨layer, later, there, loaded, held⟩ := loaded
    exact .of_loaded there loaded held fun spares => spares rfl
  | loadAll id entries =>
    refine (ends_loadParameters id entries machine).mono (fun _ after loaded => ?_)
      fun _ after followed => .of_quiet followed.layers followed.memory
    obtain ⟨layer, later, there, loaded, held⟩ := loaded
    exact .of_loaded there loaded held fun spares => spares rfl
  | materialize id =>
    rw [run]
    cases there : machine.layers[id]? with
    | none =>
      simp only [ensureMaterialized, findLayer, ends_bind, ends_get, there, ends_throw]
      exact .of_quiet rfl (.refl _ _)
    | some layer =>
      refine (ends_ensureLayer there).mono (fun _ after ended => ?_) fun _ after failed => ?_
      · obtain ⟨ready, ensured⟩ := ended
        exact .of_ensured there ensured (.refl _ _)
      · rcases failed.1 with followed | ⟨ready, ensured⟩
        · exact .of_quiet followed.layers followed.memory
        · exact .of_ensured there ensured (.refl _ _)
  | apply id activation =>
    simp only [run, ends_bind, ends_pure]
    exact (ends_applyLayer_touched id activation machine).mono (fun _ _ => .of_touched)
      fun _ _ => .of_touched
  | registerRuntime type remove =>
    simp only [run, QuantLinear.registerRuntime, makeRuntime, ends_bind, ends_ite, ends_pure, ends_map,
      ends_get, ends_set, ends_require, ends_modify]
    exact ⟨fun _ => ⟨fun _ => .of_quiet rfl (.refl _ _), fun _ => .of_quiet rfl (.refl _ _)⟩,
      fun _ => ⟨fun _ => .of_quiet rfl (.refl _ _), fun _ => .of_quiet rfl (.refl _ _)⟩⟩
  | changeKernels change => exact .of_quiet rfl (.refl _ _)
  | observe observer => exact .of_quiet rfl (.refl _ _)
  | takeReports => exact .of_quiet rfl (.refl _ _)
  | tensors change =>
    refine ⟨fun id layer there => ⟨layer, there, .refl _⟩, fun id layer none there => ?_,
      fun grows all id layer there => ?_, fun id layer there grows spares readable => ?_⟩
    · cases none.symm.trans there
    · exact (all id layer there).grown grows
    · refine ⟨layer, there, rfl, { readable with held := readable.held.grown grows }, ?_⟩
      have same : layer.numbers (change machine.memory) = layer.numbers machine.memory :=
        spares layer there
      exact same ▸ .refl _ _

namespace Machine

theorem stepped (machine : Machine) (command : Command) :
    Stepped command machine (machine.step command) := by
  have ended := command.ends_run machine
  unfold Ends at ended
  unfold step
  split at ended
  · next ran =>
    rw [ran]
    exact ended
  · next ran =>
    rw [ran]
    exact ended

/-- A run takes every layer forward. -/
theorem layers_after {machine : Machine} {id : LayerId} {layer : Layer}
    (there : machine.layers[id]? = some layer) (commands : List Command) :
    ∃ later, (machine.after commands).layers[id]? = some later ∧ layer.Advance later := by
  induction commands generalizing machine layer with
  | nil => exact ⟨layer, there, .refl layer⟩
  | cons command rest ih =>
    obtain ⟨middle, found, first⟩ := (machine.stepped command).layers id layer there
    obtain ⟨later, last, second⟩ := ih found
    exact ⟨later, last, first.trans second⟩

/-- Where the fields of all layers agree they agree after a run. -/
theorem sound_after {machine : Machine}
    (sound : ∀ (id : LayerId) (layer : Layer), machine.layers[id]? = some layer → layer.Sound)
    (commands : List Command) (id : LayerId) (layer : Layer)
    (there : (machine.after commands).layers[id]? = some layer) : layer.Sound := by
  induction commands generalizing machine with
  | nil => exact sound id layer there
  | cons command rest ih =>
    -- A layer of the next machine was there before or has just been built.
    refine ih (fun other later found => ?_) there
    have stepped := machine.stepped command
    cases before : machine.layers[other]? with
    | none => exact stepped.built other later before found
    | some known =>
      obtain ⟨same, now, advance⟩ := stepped.layers other known before
      cases found.symm.trans now
      exact advance.sound (sound other known before)

end Machine

/-- In every run from the start every layer is sound. However the run goes on, the layer keeps its
configuration and its device and stays sound, and it never changes again once it is materialized. -/
theorem layer_sound_throughout (commands more : List Command) {id : LayerId} {layer : Layer}
    (there : (Machine.initial.after commands).layers[id]? = some layer) :
    layer.Sound ∧ ∃ later, (Machine.initial.after (commands ++ more)).layers[id]? = some later ∧
      later.Sound ∧ later.spec = layer.spec ∧ later.device = layer.device ∧
      (layer.materialized = true → later = layer) := by
  have sound := Machine.sound_after (fun _ _ none => by simp [Machine.initial] at none) commands id
    layer there
  obtain ⟨later, found, advance⟩ := Machine.layers_after there more
  refine ⟨sound, later, ?_, advance.sound sound, advance.spec, advance.device, advance.fixed⟩
  rw [Machine.after, List.foldl_append]
  exact found

theorem layer_sound_throughout_built :
    ∃ layer, (Machine.initial.after
        [.build { inFeatures := 2, outFeatures := 3, hasBias := true } .host]).layers[0]? = some layer ∧
      layer.Sound ∧ ∃ later, (Machine.initial.after
        [.build { inFeatures := 2, outFeatures := 3, hasBias := true } .host,
          .materialize 0]).layers[0]? = some later ∧ later.Sound := by
  have built : ((Machine.initial.after
      [.build { inFeatures := 2, outFeatures := 3, hasBias := true } .host]).layers[0]?).isSome = true :=
    rfl
  obtain ⟨layer, there⟩ := Option.isSome_iff_exists.mp built
  obtain ⟨sound, later, found, still, -⟩ := layer_sound_throughout
    [.build { inFeatures := 2, outFeatures := 3, hasBias := true } .host] [.materialize 0] there
  exact ⟨layer, there, sound, later, found, still⟩

namespace Machine

/-- A machine at the end of a run in which every tensor that was handed to a layer existed. -/
inductive Reachable : Machine → Prop
  | initial : Reachable .initial
  | step {machine : Machine} (command : Command) :
      Reachable machine → command.Given machine → Reachable (machine.step command)

namespace Reachable

variable {machine : Machine}

theorem holds (reachable : machine.Reachable) : machine.Holds := by
  induction reachable with
  | initial =>
    intro id layer none
    simp [Machine.initial] at none
  | step command _ given ih => exact (Machine.stepped _ command).holds given ih

theorem sound (reachable : machine.Reachable) (id : LayerId) (layer : Layer)
    (there : machine.layers[id]? = some layer) : layer.Sound := by
  induction reachable generalizing id layer with
  | initial => simp [Machine.initial] at there
  | step command _ _ ih =>
    exact Machine.sound_after ih [command] id layer there

end Reachable

/-- A run that goes on without loading into a layer and without writing to its numbers. -/
inductive Continues (id : LayerId) (first : Machine) : Machine → Prop
  | refl : Continues id first first
  | step {machine : Machine} (command : Command) :
      Continues id first machine → command.Given machine → command.Spares machine id →
      Continues id first (machine.step command)

/-- Whatever else a run does, a layer keeps its numbers, be it materialized on the way or not. -/
theorem Continues.numbers {id : LayerId} {first machine : Machine}
    (continues : Continues id first machine) {layer : Layer}
    (there : first.layers[id]? = some layer) (readable : layer.Readable first.memory) :
    ∃ later, machine.layers[id]? = some later ∧ later.spec = layer.spec ∧
      later.Readable machine.memory ∧
      LayerNumbers.Agree layer.spec (later.numbers machine.memory) (layer.numbers first.memory) := by
  induction continues with
  | refl => exact ⟨layer, there, rfl, readable, .refl _ _⟩
  | step command _ given spares ih =>
    obtain ⟨middle, found, same, reads, agree⟩ := ih
    obtain ⟨later, last, still, readable, agrees⟩ :=
      (Machine.stepped _ command).numbers id middle found given spares reads
    rw [same] at still agrees
    exact ⟨later, last, still, readable, agrees.trans agree⟩

end Machine

end QuantLinear
