import QuantLinear.Proofs.Run
import QuantLinear.Proofs.Mirror

/-!
Materializing once.

A materialized layer is frozen: calls on it may add storages and nothing else, and it takes no more
parameters. For an open layer it makes no difference whether it is materialized on its own or by the
first call that applies it. Where materializing succeeds the second attempt has nothing to do; where
it fails the machine still has the same runtimes and kernels, so the second attempt fails likewise.
-/

namespace QuantLinear

open QuantLinear.Action

/-- Whether a call is one on a layer: it loads into the layer, materializes it or applies it. -/
def Command.On (id : LayerId) : Command → Prop
  | .load other _ _ | .loadAll other _ | .materialize other | .apply other _ => other = id
  | _ => False

/-- A layer is frozen between two machines: nothing but new storages came up, and every parameter is
refused. -/
structure Frozen (before : Machine) (id : LayerId) (layer : Layer) (after : Machine) : Prop where
  follows : before.Follows [] after
  refuses : ∀ name value, loadParameter id name value after =
    .error (.layer (.frozen name layer.spec.path)) after
  /-- Of several parameters the last one is reported. -/
  refusesAll : ∀ entries name value, loadParameters id (entries ++ [(name, value)]) after =
    .error (.layer (.frozen name layer.spec.path)) after

section Calls

variable {machine : Machine} {id : LayerId} {layer : Layer}

theorem findLayer_bind (there : machine.layers[id]? = some layer) {α : Type}
    (next : Layer → Action α) : (findLayer id >>= next) machine = next layer machine := by
  have ended : (findLayer id).Ends machine (fun answer after => answer = layer ∧ after = machine)
      fun _ _ => False := by
    simp only [findLayer, ends_bind, ends_get, there, ends_pure, and_self]
  obtain ⟨answer, after, found, rfl, rfl⟩ := ended.returned
  exact bind_answered found next

private theorem Layer.checkOpen_frozen (done : layer.materialized = true) (name : String) :
    layer.checkOpen name = .error (.layer (.frozen name layer.spec.path)) := by
  rw [checkOpen, done]
  rfl

theorem loadParameter_frozen (there : machine.layers[id]? = some layer)
    (done : layer.materialized = true) (name : String) (value : Handle) :
    loadParameter id name value machine = .error (.layer (.frozen name layer.spec.path)) machine := by
  rw [loadParameter, findLayer_bind there, Layer.checkOpen_frozen done]
  rfl

theorem loadParameters_frozen (there : machine.layers[id]? = some layer)
    (done : layer.materialized = true) (entries : List (String × Handle)) (name : String)
    (value : Handle) : loadParameters id (entries ++ [(name, value)]) machine =
      .error (.layer (.frozen name layer.spec.path)) machine := by
  rw [loadParameters, findLayer_bind there, List.reverse_concat, List.mapM_cons]
  simp only [Layer.checkOpen_frozen done]
  rfl

/-- Without parameters nothing happens. -/
theorem loadParameters_nil (there : machine.layers[id]? = some layer) :
    loadParameters id [] machine = .ok () machine := by
  obtain ⟨inside, same⟩ := Array.getElem?_eq_some_iff.mp there
  have kept : machine.layers.setIfInBounds id layer = machine.layers := by
    simp [Array.setIfInBounds, inside, ← same]
  rw [loadParameters, findLayer_bind there]
  change EStateM.Result.ok () { machine with layers := machine.layers.setIfInBounds id layer } = _
  rw [kept]

/-- Materializing a materialized layer again has nothing to do. -/
theorem ensureMaterialized_again (there : machine.layers[id]? = some layer)
    (done : layer.materialized = true) : ensureMaterialized id machine = .ok () machine := by
  rw [ensureMaterialized, findLayer_bind there, done]
  rfl

/-- A call on a frozen layer adds storages and nothing else. -/
private theorem ends_run_frozen (there : machine.layers[id]? = some layer)
    (done : layer.materialized = true)
    {command : Command} (on : command.On id) :
    command.run.Ends machine (fun _ after => machine.Follows [] after)
      fun _ after => machine.Follows [] after := by
  have still {ready : Layer} {middle : Machine} (ensured : Ensured machine id layer ready middle) :
      middle = machine := by
    rcases ensured with ⟨-, -, same⟩ | ⟨unready, -⟩
    · exact same
    · cases unready.symm.trans done
  cases command with
  | load other name value =>
    cases on
    simp only [Command.run, Ends, loadParameter_frozen there done]
    exact .refl _ _
  | loadAll other entries =>
    cases on
    rcases List.eq_nil_or_concat entries with rfl | ⟨rest, ⟨name, value⟩, rfl⟩
    · simp only [Command.run, Ends, loadParameters_nil there]
      exact .refl _ _
    · simp only [Command.run, Ends, List.concat_eq_append, loadParameters_frozen there done]
      exact .refl _ _
  | materialize other =>
    cases on
    simp only [Command.run, Ends, ensureMaterialized_again there done]
    exact .refl _ _
  | apply other activation =>
    cases on
    simp only [Command.run, ends_bind, ends_pure]
    have same (after : Machine) (touched : Touched machine id after) :
        machine.Follows [] after := by
      rcases touched with followed | ⟨known, ready, middle, found, ensured, followed⟩
      · exact followed
      · cases there.symm.trans found
        exact still ensured ▸ followed
    exact (ends_applyLayer_touched id activation machine).mono (fun _ => same) fun _ => same
  | _ => exact on.elim

private theorem step_frozen (there : machine.layers[id]? = some layer)
    (done : layer.materialized = true)
    {command : Command} (on : command.On id) : machine.Follows [] (machine.step command) := by
  have ended := ends_run_frozen there done on
  unfold Ends at ended
  unfold Machine.step
  split at ended
  · next ran => rwa [ran]
  · next ran => rwa [ran]

/-- A frozen layer stays frozen through all calls on it. -/
private theorem frozen_after (there : machine.layers[id]? = some layer)
    (done : layer.materialized = true)
    (commands : List Command) (on : ∀ command ∈ commands, command.On id) :
    Frozen machine id layer (machine.after commands) := by
  induction commands generalizing machine with
  | nil => exact ⟨.refl _ _, loadParameter_frozen there done, loadParameters_frozen there done⟩
  | cons command rest ih =>
    have first := step_frozen there done (on command List.mem_cons_self)
    have found : (machine.step command).layers[id]? = some layer := by rw [first.layers, there]
    have later := ih found fun other member => on other (List.mem_cons_of_mem _ member)
    exact ⟨first.trans later.follows, later.refuses, later.refusesAll⟩

end Calls

section Order

variable {machine : Machine} {id : LayerId} {layer : Layer}

/-- A machine has every kernel that a layer multiplies with. -/
def Layer.Registered (layer : Layer) (machine : Machine) : Prop :=
  ∀ kernel ∈ layer.variant.kernels, (machine.kernels.find? kernel layer.device.type).isSome = true

private theorem Layer.Registered.checkKernels_ok (registered : layer.Registered machine) :
    checkKernels layer.variant layer.device machine = .ok () machine := by
  have ended : (checkKernels layer.variant layer.device).Ends machine
      (fun _ after => after = machine) fun _ _ => False := by
    simp only [checkKernels, ends_bind, ends_get]
    unfold Layer.Registered at registered
    generalize layer.variant.kernels = kernels at registered ⊢
    induction kernels with
    | nil => rfl
    | cons kernel rest ih =>
      simp only [List.forM, ends_bind, ends_require]
      constructor
      · intro _
        exact ih fun other member => registered other (List.mem_cons_of_mem _ member)
      · intro none
        cases none.symm.trans (registered kernel List.mem_cons_self)
  obtain ⟨⟨⟩, after, ran, rfl⟩ := ended.returned
  exact ran

/-- What applying a layer does once the layer is materialized. -/
def applyReady (id : LayerId) (activation : Handle) : Action Tensor := do
  let layer ← findLayer id
  let x ← layer.checkActivation activation
  layer.product x

/-- With its kernels there, applying a layer begins by materializing it. -/
theorem applyLayer_eq (there : machine.layers[id]? = some layer) (registered : layer.Registered machine)
    (activation : Handle) : applyLayer id activation machine =
      (do ensureMaterialized id; applyReady id activation) machine := by
  rw [applyLayer, findLayer_bind there, bind_answered registered.checkKernels_ok]
  rfl

/-- Materializing an open layer: preparing it, replacing it, counting and reporting. -/
theorem ensureMaterialized_eq (there : machine.layers[id]? = some layer)
    (unready : layer.materialized = false) : ensureMaterialized id machine =
      (do
        let made ← materialized layer
        setLayer id made.1
        modify fun machine =>
          { machine with placeholders := machine.placeholders + made.2.length }
        notify made.2 : Action Unit) machine := by
  rw [ensureMaterialized, findLayer_bind there, unready]
  rfl

/-- An observer that takes all reports lets a layer come into its place once it is prepared. -/
theorem ends_commit {machine : Machine} {id : LayerId} {layer : Layer}
    (there : machine.layers[id]? = some layer)
    (accepts : ∀ seen report, machine.observer.takes seen report = true) (ready : Layer)
    (reports : List Placeholder) :
    Ends (do
        setLayer id ready
        modify fun machine =>
          { machine with placeholders := machine.placeholders + reports.length }
        notify reports) machine
      (fun _ after => after.layers[id]? = some ready ∧ after.runtimes = machine.runtimes ∧
        after.kernels = machine.kernels ∧ after.memory = machine.memory)
      fun _ _ => False := by
  obtain ⟨inside, -⟩ := Array.getElem?_eq_some_iff.mp there
  simp only [setLayer, ends_bind, ends_modify]
  refine (ends_notify reports _).mono (fun _ after ended => ?_) fun _ _ refused => ?_
  · rw [ended.1]
    exact ⟨by simp [Machine.told, inside], rfl, rfl, rfl⟩
  · obtain ⟨-, earlier, report, later, -, -, fails⟩ := refused
    cases fails.refuses.symm.trans (accepts _ report)

/-- An observer that takes all reports cannot make a call fail, so a call that fails has come no
further than to prepare the layer. -/
private theorem ensureMaterialized_failed (there : machine.layers[id]? = some layer)
    (unready : layer.materialized = false)
    (accepts : ∀ seen report, machine.observer.takes seen report = true) {fault : Fault}
    {after : Machine} (failed : ensureMaterialized id machine = .error fault after) :
    materialized layer machine = .error fault after ∧ machine.Follows [] after := by
  rw [ensureMaterialized_eq there unready] at failed
  have ended := ends_materialized layer machine
  cases ran : materialized layer machine with
  | error first before =>
    rw [bind_failed ran] at failed
    cases failed
    exact ⟨rfl, (ended.failure ran).1⟩
  | ok made prepared =>
    obtain ⟨followed, -⟩ := ended.answer ran
    have still : prepared.layers[id]? = some layer := by rw [followed.layers, there]
    obtain ⟨answer, last, returned, -⟩ :=
      (ends_commit still (by rwa [followed.observer]) made.1 made.2).returned
    rw [bind_answered ran] at failed
    cases failed.symm.trans returned

/-- A call that failed on an open layer fails on it again for the same reason. -/
private theorem ensureMaterialized_fails_again (there : machine.layers[id]? = some layer)
    (unready : layer.materialized = false)
    (accepts : ∀ seen report, machine.observer.takes seen report = true) {fault : Fault}
    {after : Machine} (failed : ensureMaterialized id machine = .error fault after) :
    machine.Follows [] after ∧
      ∃ later, ensureMaterialized id after = .error fault later ∧ after.Follows [] later := by
  obtain ⟨stopped, followed⟩ := ensureMaterialized_failed there unready accepts failed
  have still : after.layers[id]? = some layer := by rw [followed.layers, there]
  have mirrored := mirrors_materialized layer machine after ⟨followed.runtimes, followed.kernels⟩
  rw [stopped] at mirrored
  cases again : materialized layer after with
  | ok made later =>
    rw [again] at mirrored
    exact mirrored.elim
  | error same later =>
    rw [again] at mirrored
    obtain ⟨rfl, -⟩ := mirrored
    refine ⟨followed, later, ?_, ((ends_materialized layer after).failure again).1⟩
    rw [ensureMaterialized_eq still unready, bind_failed again]

end Order

/-- Two calls end alike: with one answer on one machine, or with one fault, the second one after
nothing but more new storages. -/
def SameEnd {α : Type} : (first second : EStateM.Result Fault Machine α) → Prop
  | .ok answer after, .ok same later => same = answer ∧ later = after
  | .error fault after, .error same later => same = fault ∧ after.Follows [] later
  | _, _ => False

theorem SameEnd.refl {α : Type} (result : EStateM.Result Fault Machine α) : SameEnd result result := by
  cases result with
  | ok answer after => exact ⟨rfl, rfl⟩
  | error fault after => exact ⟨rfl, .refl _ _⟩

theorem Ensured.kernels {before after : Machine} {id : LayerId} {layer ready : Layer}
    (ensured : Ensured before id layer ready after) : after.kernels = before.kernels := by
  rcases ensured with ⟨-, -, rfl⟩ | ⟨-, called, prepared, followed, -, rfl⟩
  · rfl
  · exact followed.kernels

/-- Where an open layer is materialized successfully, applying it goes on from there. -/
private theorem applyLayer_materialized {machine after : Machine} {id : LayerId} {layer : Layer}
    (there : machine.layers[id]? = some layer) (registered : layer.Registered machine)
    (returned : ensureMaterialized id machine = .ok () after) (activation : Handle) :
    applyLayer id activation after = applyLayer id activation machine := by
  obtain ⟨ready, ensured⟩ := (ends_ensureLayer there).answer returned
  have found := ensured.found there
  have still : ready.Registered after := by
    rw [Layer.Registered, Layer.variant, ensured.spec.1, ensured.spec.2, ensured.kernels]
    exact registered
  rw [applyLayer_eq there registered, applyLayer_eq found still, bind_answered returned,
    bind_answered (ensureMaterialized_again found ensured.materialized)]

/-- A layer is materialized once. Through any calls on it a materialized layer stays as it is, nothing
is counted or reported, and every parameter is refused. Materializing an open layer before it is
applied makes no difference: not where both calls run as one program, and not where the second one
runs whatever became of the first. -/
theorem layer_materialized_once {machine : Machine} {id : LayerId} {layer : Layer}
    (there : machine.layers[id]? = some layer) :
    (layer.materialized = true → ∀ commands : List Command,
      (∀ command ∈ commands, command.On id) → Frozen machine id layer (machine.after commands)) ∧
    (layer.materialized = false → layer.Registered machine →
      (∀ seen report, machine.observer.takes seen report = true) → ∀ activation,
        (do ensureMaterialized id; applyLayer id activation) machine =
            applyLayer id activation machine ∧
          SameEnd (applyLayer id activation machine)
            (applyLayer id activation (machine.step (.materialize id)))) := by
  refine ⟨fun done => frozen_after there done, fun unready registered accepts activation => ?_⟩
  have lazy := applyLayer_eq there registered activation
  cases ran : ensureMaterialized id machine with
  | ok answer after =>
    have eager := applyLayer_materialized there registered ran activation
    have step : machine.step (.materialize id) = after := by
      simp only [Machine.step, Command.run, ran]
    constructor
    · simpa only [bind, EStateM.bind, ran] using eager
    · rw [step, eager]
      exact .refl _
  | error fault after =>
    obtain ⟨followed, later, again, more⟩ :=
      ensureMaterialized_fails_again there unready accepts ran
    have step : machine.step (.materialize id) = after := by
      simp only [Machine.step, Command.run, ran]
    have still : after.layers[id]? = some layer := by rw [followed.layers, there]
    have retained : layer.Registered after := by
      rw [Layer.Registered, followed.kernels]
      exact registered
    have eager := applyLayer_eq still retained activation
    simp only [bind, EStateM.bind, ran, again] at lazy eager ⊢
    rw [lazy, step, eager]
    exact ⟨rfl, rfl, more⟩

theorem layer_materialized_once_unloaded :
    (∃ layer, (Machine.unloaded.step (.materialize 0)).layers[0]? = some layer ∧
      Frozen (Machine.unloaded.step (.materialize 0)) 0 layer
        ((Machine.unloaded.step (.materialize 0)).after
          [.load 0 "weight" none, .materialize 0, .loadAll 0 [("bias", none)], .apply 0 none])) ∧
    ∀ activation, SameEnd (applyLayer 0 activation Machine.unloaded)
      (applyLayer 0 activation (Machine.unloaded.step (.materialize 0))) := by
  constructor
  · have done : ((Machine.unloaded.step (.materialize 0)).layers[0]?).any (·.materialized) = true := rfl
    obtain ⟨layer, there, materialized⟩ := (Option.any_eq_true _ _).mp done
    refine ⟨layer, there, (layer_materialized_once there).1 materialized _ ?_⟩
    intro command member
    simp only [List.mem_cons, List.not_mem_nil, or_false] at member
    rcases member with rfl | rfl | rfl | rfl <;> rfl
  · intro activation
    have registered : Layer.unloaded.Registered Machine.unloaded := by
      unfold Layer.Registered
      decide
    exact ((layer_materialized_once (rfl : Machine.unloaded.layers[0]? = some .unloaded)).2 rfl
      registered (fun _ _ => rfl) activation).2

end QuantLinear
