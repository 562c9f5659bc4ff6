import QuantLinear.Proofs.Frozen

/-!
Loading parameters.

Into an open layer, loading is staging, which touches no layer, and then attaching. What building and
loading come to as a whole is stated here for what reads a run call by call.
-/

namespace QuantLinear

open QuantLinear.Action

section Open

variable {machine : Machine} {id : LayerId} {layer : Layer}

private theorem Layer.checkOpen_open (unready : layer.materialized = false) (name : String) :
    layer.checkOpen name = .ok () := by
  rw [checkOpen, unready]
  rfl

/-- Loading into an open layer is staging and attaching. -/
theorem loadParameter_open (there : machine.layers[id]? = some layer)
    (unready : layer.materialized = false) (name : String) (value : Handle) :
    loadParameter id name value machine =
      (do
        let parameter ← layer.stage name value
        setLayer id (layer.attach parameter)) machine := by
  rw [loadParameter, findLayer_bind there, layer.checkOpen_open unready]
  rfl

/-- Loading a set into an open layer is staging all of it and attaching all of it. -/
theorem loadParameters_open (there : machine.layers[id]? = some layer)
    (unready : layer.materialized = false) (entries : List (String × Handle)) :
    loadParameters id entries machine =
      (do
        let parameters ← entries.reverse.mapM fun (name, value) => layer.stage name value
        setLayer id (parameters.foldl Layer.attach layer)) machine := by
  rw [loadParameters, findLayer_bind there]
  simp only [layer.checkOpen_open unready]
  rfl

end Open

/-- A machine with another layer in a place. -/
def Machine.withLayer (machine : Machine) (id : LayerId) (layer : Layer) : Machine :=
  { machine with layers := machine.layers.setIfInBounds id layer }

/-- Attaching parameters counts nothing. -/
theorem Layer.attachAll_placeholders (layer : Layer) (parameters : List Parameter) :
    (parameters.foldl Layer.attach layer).placeholders = layer.placeholders := by
  induction parameters generalizing layer with
  | nil => rfl
  | cons parameter rest ih =>
    have later := ih (layer.attach parameter)
    cases parameter <;> exact later

/-- What loading comes to between two machines: the parameters that were staged are attached to the
layer, and a layer that is not open has none. -/
def Attached (before : Machine) (id : LayerId) (parameters : List Parameter) (after : Machine) :
    Prop :=
  ∃ layer, before.layers[id]? = some layer ∧ (layer.materialized = true → parameters = []) ∧
    ∃ staged, before.Follows [] staged ∧
      after = staged.withLayer id (parameters.foldl Layer.attach layer)

/-- An open layer without scales. -/
def Layer.blank (spec : LayerSpec) (device : Device) (weight : Tensor) (bias : Option Tensor) :
    Layer :=
  ⟨spec, device, weight, bias, {}, false, false, 0⟩

/-- What building comes to between two machines: a layer is added that is open and has no scales. It
has a bias where its configuration asks for one. -/
def Added (before : Machine) (spec : LayerSpec) (device : Device) (after : Machine) : Prop :=
  ∃ weight bias staged, bias.isSome = spec.hasBias ∧ before.Follows [] staged ∧
    after = { staged with layers := staged.layers.push (.blank spec device weight bias) }

theorem ends_buildLayer_added (spec : LayerSpec) (device : Device) (machine : Machine) :
    (buildLayer spec device).Ends machine
      (fun id after => id = machine.layers.size ∧ Added machine spec device after)
      (fun _ after => machine.Follows [] after) := by
  simp only [buildLayer, ends_bind, ends_lift, zeroTensor]
  refine ⟨fun _ _ => ?_, fun _ _ => .refl _ _⟩
  refine (ends_filledTensor spec.weightShape _ (.float .f8) device machine).mono
    (fun weight middle made => ?_) fun _ _ failed => failed.1
  have first := made.2.1.follows
  simp only [ends_ite, ends_map, ends_bind, ends_get, ends_modify, ends_pure]
  refine ⟨fun asked => ?_, fun bare =>
    ⟨by rw [first.layers], weight, none, middle, by simpa using bare, first, rfl⟩⟩
  refine (ends_filledTensor [spec.outFeatures] _ spec.paramsKind device middle).mono
    (fun bias staged placed => ?_) fun _ _ failed => first.trans failed.1
  have whole := first.trans placed.2.1.follows
  exact ⟨by rw [whole.layers], weight, some bias, staged, asked.symm, whole, rfl⟩

theorem ends_loadParameter_attached (id : LayerId) (name : String) (value : Handle)
    (machine : Machine) :
    (loadParameter id name value).Ends machine
      (fun _ after => ∃ parameter, Attached machine id [parameter] after)
      (fun _ after => machine.Follows [] after) := by
  simp only [loadParameter, findLayer, ends_bind, ends_get]
  cases found : machine.layers[id]? with
  | none => exact .refl _ _
  | some layer =>
    simp only [ends_pure, Layer.checkOpen, ends_require, Bool.not_eq_true', Bool.not_eq_false']
    refine ⟨fun unready => ?_, fun _ => .refl _ _⟩
    refine (ends_stage layer name value machine).mono (fun parameter staged made => ?_)
      fun _ _ failed => failed
    refine ⟨parameter, layer, found, fun done => ?_, staged, made.1, rfl⟩
    cases unready.symm.trans done

theorem ends_loadParameters_attached (id : LayerId) (entries : List (String × Handle))
    (machine : Machine) :
    (loadParameters id entries).Ends machine
      (fun _ after => ∃ parameters, Attached machine id parameters after)
      (fun _ after => machine.Follows [] after) := by
  simp only [loadParameters, findLayer, ends_bind, ends_get]
  cases found : machine.layers[id]? with
  | none => exact .refl _ _
  | some layer =>
    simp only [ends_pure]
    refine (ends_stageAll layer entries.reverse machine).mono (fun parameters staged made => ?_)
      fun _ _ failed => failed
    refine ⟨parameters, layer, found, fun done => ?_, staged, made.follows, rfl⟩
    by_contra some
    cases (made.unready some).symm.trans done

end QuantLinear
