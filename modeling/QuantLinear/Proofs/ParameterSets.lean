import Mathlib.Data.List.Nodup
import Mathlib.Data.List.Perm.Basic
import QuantLinear.Proofs.Loading
import QuantLinear.Proofs.Correspondence.Layer

/-!
Loading a set of parameters.

A set of parameters is staged as a whole before any of it is attached. Whether a parameter can be
staged, and as what, depends on nothing that staging the others does, and parameters of different
names are attached side by side. So a set can be loaded exactly where each of its parameters can be
loaded on its own, and it comes to the same as loading them one after the other in any order, except
that a parameter from another device is copied by each run for itself.
-/

namespace QuantLinear

open QuantLinear.Action Correspondence

private theorem ScaleRole.label_of_ofLabel? {name : String} {role : ScaleRole}
    (found : ofLabel? name = some role) : role.label = name := by
  simpa using List.find?_some found

/-- The name that a parameter is loaded under. -/
def Parameter.name : Parameter → String
  | .weight _ => "weight"
  | .bias _ => "bias"
  | .scale role _ => role.label

section Attach

private theorem ScaleSlots.set_comm (slots : ScaleSlots) {role other : ScaleRole} (apart : role ≠ other)
    (slot second : ScaleSlot) :
    (slots.set role slot).set other second = (slots.set other second).set role slot := by
  cases role <;> cases other <;> first | rfl | exact absurd rfl apart

/-- Parameters of different names are attached in either order. -/
private theorem Layer.attach_comm (layer : Layer) {first second : Parameter}
    (apart : first.name ≠ second.name) :
    (layer.attach first).attach second = (layer.attach second).attach first := by
  cases first <;> cases second
  case weight.weight | bias.bias => exact absurd rfl apart
  case scale.scale =>
    have roles := layer.scales.set_comm (mt (congrArg ScaleRole.label) apart)
    simp only [attach, roles]
  all_goals rfl

theorem Layer.attachAll_perm (layer : Layer) {parameters others : List Parameter}
    (perm : parameters.Perm others) (distinct : (parameters.map (·.name)).Nodup) :
    parameters.foldl attach layer = others.foldl attach layer := by
  refine perm.foldl_eq' (fun first here second there known => ?_) layer
  by_cases same : first.name = second.name
  · rw [List.inj_on_of_nodup_map distinct here there same]
  · exact known.attach_comm same

/-- A layer that differs from another one at most in parameters of the given names. -/
structure Layer.Untouched (names : List String) (layer later : Layer) : Prop where
  spec : later.spec = layer.spec
  device : later.device = layer.device
  repacked : later.repacked = layer.repacked
  materialized : later.materialized = layer.materialized
  placeholders : later.placeholders = layer.placeholders
  weight : "weight" ∉ names → later.weight = layer.weight
  bias : "bias" ∉ names → later.bias = layer.bias
  scales : ∀ role : ScaleRole, role.label ∉ names → later.scales.get role = layer.scales.get role

private theorem Layer.untouched_refl (names : List String) (layer : Layer) :
    layer.Untouched names layer :=
  ⟨rfl, rfl, rfl, rfl, rfl, fun _ => rfl, fun _ => rfl, fun _ _ => rfl⟩

private theorem Layer.untouched_attach (layer : Layer) (parameter : Parameter) :
    layer.Untouched [parameter.name] (layer.attach parameter) := by
  have all := layer.untouched_refl [parameter.name]
  cases parameter with
  | weight tensor => exact { all with weight := fun none => absurd (List.mem_singleton.mpr rfl) none }
  | bias tensor => exact { all with bias := fun none => absurd (List.mem_singleton.mpr rfl) none }
  | scale role value =>
    refine { all with scales := fun other none => ?_ }
    rw [attach, ScaleSlots.get_set, if_neg]
    rintro rfl
    exact none (List.mem_singleton.mpr rfl)

private theorem Layer.untouched_attachAll (layer : Layer) (parameters : List Parameter) :
    layer.Untouched (parameters.map (·.name)) (parameters.foldl attach layer) := by
  induction parameters generalizing layer with
  | nil => exact layer.untouched_refl _
  | cons parameter rest ih =>
    have first := layer.untouched_attach parameter
    have others := ih (layer.attach parameter)
    have apart {name : String} (none : name ∉ (parameter :: rest).map (·.name)) :
        name ∉ [parameter.name] ∧ name ∉ rest.map (·.name) :=
      ⟨fun here => none (List.mem_cons.mpr (.inl (List.mem_singleton.mp here))),
        fun there => none (List.mem_cons_of_mem _ there)⟩
    exact
      { spec := others.spec.trans first.spec
        device := others.device.trans first.device
        repacked := others.repacked.trans first.repacked
        materialized := others.materialized.trans first.materialized
        placeholders := others.placeholders.trans first.placeholders
        weight := fun none => (others.weight (apart none).2).trans (first.weight (apart none).1)
        bias := fun none => (others.bias (apart none).2).trans (first.bias (apart none).1)
        scales := fun role none =>
          (others.scales role (apart none).2).trans (first.scales role (apart none).1) }

end Attach

section Same

/-- Two runs from one memory hold one tensor, or each a copy of its own that shows the same bytes in
the same way. -/
def SameTensor (start left : Memory) (x : Tensor) (right : Memory) (y : Tensor) : Prop :=
  y = x ∨ start.next ≤ x.storage ∧ start.next ≤ y.storage ∧ y.toView = x.toView.over y.storage ∧
    right.contents y.storage = left.contents x.storage

/-- Layers that two runs from one memory left behind, which differ at most in the identity of copies
that each run made for itself. -/
structure Layer.SameUpToCopies (start left : Memory) (layer : Layer) (right : Memory)
    (other : Layer) : Prop where
  spec : other.spec = layer.spec
  device : other.device = layer.device
  repacked : other.repacked = layer.repacked
  materialized : other.materialized = layer.materialized
  placeholders : other.placeholders = layer.placeholders
  scales : other.scales = layer.scales
  weight : SameTensor start left layer.weight right other.weight
  bias : Option.Rel (fun x y => SameTensor start left x right y) layer.bias other.bias

def Parameter.Same (start left right : Memory) : Parameter → Parameter → Prop
  | .weight x, .weight y | .bias x, .bias y => SameTensor start left x right y
  | .scale role value, .scale other again => other = role ∧ again = value
  | _, _ => False

variable {start left right : Memory} {layer other : Layer}

private theorem Layer.sameUpToCopies_refl (start left right : Memory) (layer : Layer) :
    layer.SameUpToCopies start left right layer where
  spec := rfl
  device := rfl
  repacked := rfl
  materialized := rfl
  placeholders := rfl
  scales := rfl
  weight := .inl rfl
  bias := by
    cases layer.bias with
    | none => exact .none
    | some bias => exact .some (.inl rfl)

theorem Layer.SameUpToCopies.attach (same : layer.SameUpToCopies start left right other)
    {first second : Parameter} (alike : first.Same start left right second) :
    (layer.attach first).SameUpToCopies start left right (other.attach second) := by
  cases first <;> cases second
  case weight.weight => exact { same with weight := alike }
  case bias.bias => exact { same with bias := .some alike }
  case scale.scale _ _ role value =>
    obtain ⟨rfl, rfl⟩ := alike
    have slots := congrArg (·.set role (.ofTensor? value)) same.scales
    exact { same with scales := slots }
  all_goals exact alike.elim

theorem Layer.SameUpToCopies.attachAll (same : layer.SameUpToCopies start left right other)
    {parameters others : List Parameter}
    (alike : List.Forall₂ (Parameter.Same start left right) parameters others) :
    (parameters.foldl Layer.attach layer).SameUpToCopies start left right
      (others.foldl Layer.attach other) := by
  induction alike generalizing layer other with
  | nil => exact same
  | cons first _ ih => exact ih (same.attach first)

end Same

section Stage

variable {layer : Layer} {start machine other : Machine} {entry : String × Handle}
  {parameter : Parameter}

/-- A parameter can be staged for a layer. -/
def Layer.Stages (layer : Layer) (start : Machine) (entry : String × Handle) : Prop :=
  ∃ parameter after, layer.stage entry.1 entry.2 start = .ok parameter after

/-- A parameter was staged for a layer on the way from one machine to another. -/
def Arrived (layer : Layer) (start after : Machine) (entry : String × Handle)
    (parameter : Parameter) : Prop :=
  ∃ before staged, start.Extends before ∧
    layer.stage entry.1 entry.2 before = .ok parameter staged ∧ staged.Extends after

theorem Arrived.later {middle after : Machine} (arrived : Arrived layer start middle entry parameter)
    (extended : middle.Extends after) : Arrived layer start after entry parameter := by
  obtain ⟨before, staged, first, ran, last⟩ := arrived
  exact ⟨before, staged, first, ran, last.trans extended⟩

/-- Parameters are staged under their names. -/
private theorem ends_stage_name (layer : Layer) (name : String) (value : Handle) (machine : Machine) :
    (layer.stage name value).Ends machine (fun parameter _ => parameter.name = name)
      fun _ _ => True := by
  have brought (tensor : Tensor) (middle : Machine) :
      (toDevice tensor layer.device).Ends middle (fun _ _ => True) fun _ _ => True :=
    ends_somewhere _ _
  simp only [Layer.stage, ends_bind, ends_ite, ends_lift, ends_pure]
  refine ⟨fun same => ⟨fun tensor _ => (brought tensor machine).mono (fun _ _ _ => same.symm)
    fun _ _ _ => trivial, fun _ _ => trivial⟩, fun _ => ⟨fun same => ⟨fun tensor _ =>
      (brought tensor machine).mono (fun _ _ _ => same.symm) fun _ _ _ => trivial,
        fun _ _ => trivial⟩, fun _ => ?_⟩⟩
  cases found : ScaleRole.ofLabel? name with
  | some role => exact ScaleRole.label_of_ofLabel? found
  | none => trivial

theorem Arrived.name (arrived : Arrived layer start machine entry parameter) :
    parameter.name = entry.1 := by
  obtain ⟨before, staged, -, ran, -⟩ := arrived
  exact (ends_stage_name layer entry.1 entry.2 before).answer ran

/-- What staging gives in two runs from one machine. -/
private theorem stage_together (layer : Layer) (first : start.Extends machine)
    (second : start.Extends other)
    (given : start.memory.HasValue entry.2) :
    Together (fun parameter after same later =>
        Action.Parameters (since first.memory second.memory) parameter same ∧
          (since first.memory second.memory).Machines after later)
      (fun fault after same later =>
        fault.Alike same ∧ (since first.memory second.memory).Machines after later)
      (layer.stage entry.1 entry.2 machine) (layer.stage entry.1 entry.2 other) :=
  parallel_stage layer entry.1 (fun x there => tensors_since first second (given x there).stored)
    machine other (machines_since first second)

/-- Whether a parameter can be staged does not depend on what was staged before. -/
private theorem stages_iff (extended : start.Extends machine) (given : start.memory.HasValue entry.2) :
    layer.Stages machine entry ↔ layer.Stages start entry := by
  have both := stage_together layer (.refl start) extended given
  constructor
  · rintro ⟨parameter, after, ran⟩
    obtain ⟨same, later, again, -⟩ := both.answered ran
    exact ⟨same, later, again⟩
  · rintro ⟨parameter, after, ran⟩
    obtain ⟨same, later, again, -⟩ := both.answer ran
    exact ⟨same, later, again⟩

/-- A tensor that two runs from one machine brought to a layer. -/
private theorem sameTensor_of_news {first second after later : Machine} {x y : Tensor}
    (fromFirst : start.Extends machine) (fromSecond : start.Extends other)
    (arrived : y = x ∨ (since fromFirst.memory fromSecond.memory).News x y)
    (alike : (since fromFirst.memory fromSecond.memory).Machines first second)
    (there : first.memory.Has x.toView) (known : second.memory.Has y.toView)
    (kept : first.Extends after) (keeps : second.Extends later) :
    SameTensor start.memory after.memory x later.memory y := by
  rcases arrived with same | ⟨storage, handle, rfl, new, paired⟩
  · exact .inl same
  · have fresh : start.memory.next ≤ x.storage := Nat.le_trans fromFirst.memory.grows new
    have renewed : start.memory.next ≤ storage := by
      have grown := fromSecond.memory.grows
      simp only [since] at new paired
      omega
    refine .inr ⟨fresh, renewed, rfl, ?_⟩
    rw [kept.memory.contents _ there.stored List.not_mem_nil,
      keeps.memory.contents _ known.stored List.not_mem_nil]
    exact alike.memory.contents _ _ (.inr ⟨new, paired⟩)

/-- One entry arrives in two runs as the same parameter, up to copies. -/
theorem Arrived.same {after later : Machine} {second : Parameter}
    (arrived : Arrived layer start after entry parameter)
    (again : Arrived layer start later entry second) (given : start.memory.HasValue entry.2) :
    parameter.Same start.memory after.memory later.memory second := by
  obtain ⟨before, staged, first, ran, kept⟩ := arrived
  obtain ⟨before', staged', first', ran', kept'⟩ := again
  have both := stage_together layer first first' given
  rw [ran, ran'] at both
  obtain ⟨alike, machines⟩ := both
  have there := ((ends_stage layer entry.1 entry.2 before).answer ran).2.2
    (given.later first.memory)
  have known := ((ends_stage layer entry.1 entry.2 before').answer ran').2.2
    (given.later first'.memory)
  cases parameter <;> cases second
  case weight.weight => exact sameTensor_of_news first first' alike machines there known kept kept'
  case bias.bias => exact sameTensor_of_news first first' alike machines there known kept kept'
  case scale.scale => exact alike
  all_goals exact alike.elim

/-- An entry that can be staged at all arrives. -/
private theorem ends_stage_arrived (layer : Layer) (extended : start.Extends machine)
    (given : start.memory.HasValue entry.2) :
    (layer.stage entry.1 entry.2).Ends machine
      (fun parameter after => machine.Follows [] after ∧ layer.Stages start entry ∧
        Arrived layer start after entry parameter)
      (fun _ _ => ¬layer.Stages start entry) := by
  have followed := ends_stage layer entry.1 entry.2 machine
  cases ran : layer.stage entry.1 entry.2 machine with
  | ok parameter after =>
    simp only [Ends, ran]
    exact ⟨(followed.answer ran).1, (stages_iff extended given).mp ⟨parameter, after, ran⟩, machine,
      after, extended, ran, .refl after⟩
  | error fault after =>
    simp only [Ends, ran]
    intro stages
    obtain ⟨parameter, later, again⟩ := (stages_iff extended given).mpr stages
    cases ran.symm.trans again

end Stage

section Sets

variable {layer : Layer} {start : Machine}

/-- Entries that can each be staged arrive together. -/
private theorem ends_stageAll_arrived (layer : Layer) (entries : List (String × Handle))
    {machine : Machine}
    (extended : start.Extends machine)
    (given : ∀ entry ∈ entries, start.memory.HasValue entry.2) :
    Ends (entries.mapM fun (name, value) => layer.stage name value) machine
      (fun parameters after => machine.Follows [] after ∧
        (∀ entry ∈ entries, layer.Stages start entry) ∧
        List.Forall₂ (Arrived layer start after) entries parameters)
      (fun _ _ => ∃ entry ∈ entries, ¬layer.Stages start entry) := by
  induction entries generalizing machine with
  | nil => exact ⟨.refl _ _, by simp, .nil⟩
  | cons entry rest ih =>
    simp only [List.mapM_cons, ends_bind, ends_pure]
    refine (ends_stage_arrived layer extended (given entry List.mem_cons_self)).mono
      (fun parameter middle staged => ?_) fun _ _ failed => ⟨entry, List.mem_cons_self, failed⟩
    refine (ih (extended.trans staged.1.extends) fun other member =>
      given other (List.mem_cons_of_mem _ member)).mono (fun parameters after others => ?_)
      fun _ _ failed => ?_
    · exact ⟨staged.1.trans others.1, List.forall_mem_cons.mpr ⟨staged.2.1, others.2.1⟩,
        .cons (staged.2.2.later others.1.extends) others.2.2⟩
    · obtain ⟨other, member, fails⟩ := failed
      exact ⟨other, List.mem_cons_of_mem _ member, fails⟩

/-- Loads entries one after the other. -/
def loadEach (id : LayerId) (entries : List (String × Handle)) : Action Unit :=
  entries.forM fun entry => loadParameter id entry.1 entry.2

private theorem loadEach_cons (id : LayerId) (entry : String × Handle) (rest : List (String × Handle)) :
    loadEach id (entry :: rest) =
      (do loadParameter id entry.1 entry.2; loadEach id rest : Action Unit) := rfl

private theorem Layer.stage_congr {layer other : Layer} (spec : other.spec = layer.spec)
    (device : other.device = layer.device) (name : String) (value : Handle) :
    other.stage name value = layer.stage name value := by
  simp only [stage, checkWeight, checkBias, spec, device]

/-- An entry that can be staged is loaded. -/
private theorem loadParameter_arrived {id : LayerId} {entry : String × Handle} {machine : Machine}
    {now : Layer}
    (extended : start.Extends machine) (there : machine.layers[id]? = some now)
    (unready : now.materialized = false) (spec : now.spec = layer.spec)
    (device : now.device = layer.device) (given : start.memory.HasValue entry.2)
    (stages : layer.Stages start entry) :
    ∃ after parameter, loadParameter id entry.1 entry.2 machine = .ok () after ∧
      after.layers[id]? = some (now.attach parameter) ∧ machine.Extends after ∧
      Arrived layer start after entry parameter := by
  obtain ⟨parameter, staged, ran, followed, -, arrived⟩ :=
    (ends_stage_arrived layer extended given).returned_of fun _ _ fails => fails stages
  obtain ⟨inside, -⟩ := Array.getElem?_eq_some_iff.mp there
  rw [← followed.layers] at inside
  have attached : staged.Extends (staged.withLayer id (now.attach parameter)) := ⟨rfl, rfl, .refl _ _⟩
  refine ⟨staged.withLayer id (now.attach parameter), parameter, ?_, ?_,
    followed.extends.trans attached, arrived.later attached⟩
  · rw [loadParameter_open there unready, Layer.stage_congr spec device, bind_answered ran]
    rfl
  · simp [Machine.withLayer, inside]

/-- Entries that can each be staged are loaded one after the other. -/
private theorem loadEach_arrived {id : LayerId} (entries : List (String × Handle)) {machine : Machine}
    {now : Layer} (extended : start.Extends machine) (there : machine.layers[id]? = some now)
    (unready : now.materialized = false) (spec : now.spec = layer.spec)
    (device : now.device = layer.device)
    (given : ∀ entry ∈ entries, start.memory.HasValue entry.2)
    (stages : ∀ entry ∈ entries, layer.Stages start entry) :
    ∃ last parameters, loadEach id entries machine = .ok () last ∧
      last.layers[id]? = some (parameters.foldl Layer.attach now) ∧ machine.Extends last ∧
      List.Forall₂ (Arrived layer start last) entries parameters := by
  -- each parameter is attached to the layer as those before it left it
  induction entries generalizing machine now with
  | nil => exact ⟨machine, [], rfl, there, .refl machine, .nil⟩
  | cons entry rest ih =>
    obtain ⟨after, parameter, loaded, found, onward, arrived⟩ :=
      loadParameter_arrived extended there unready spec device (given entry List.mem_cons_self)
        (stages entry List.mem_cons_self)
    have fixed := now.attach_fixed parameter
    obtain ⟨last, parameters, others, final, later, arrivals⟩ := ih (extended.trans onward) found
      (fixed.2.2.trans unready) (fixed.1.trans spec) (fixed.2.1.trans device)
      (fun other member => given other (List.mem_cons_of_mem _ member))
      fun other member => stages other (List.mem_cons_of_mem _ member)
    refine ⟨last, parameter :: parameters, ?_, final, onward.trans later,
      .cons (arrived.later later) arrivals⟩
    rw [loadEach_cons, bind_answered loaded]
    exact others

private theorem names_of_arrived {after : Machine} {entries : List (String × Handle)}
    {parameters : List Parameter}
    (arrived : List.Forall₂ (Arrived layer start after) entries parameters) :
    parameters.map (·.name) = entries.map (·.1) := by
  induction arrived with
  | nil => rfl
  | cons first _ ih => rw [List.map_cons, List.map_cons, first.name, ih]

private theorem same_of_arrived {after later : Machine} {entries : List (String × Handle)}
    {parameters others : List Parameter}
    (arrived : List.Forall₂ (Arrived layer start after) entries parameters)
    (again : List.Forall₂ (Arrived layer start later) entries others)
    (given : ∀ entry ∈ entries, start.memory.HasValue entry.2) :
    List.Forall₂ (Parameter.Same start.memory after.memory later.memory) parameters others := by
  induction arrived generalizing others with
  | nil =>
    cases again
    exact .nil
  | cons first _ ih =>
    cases again with
    | cons second rest =>
      exact .cons (first.same second (given _ List.mem_cons_self))
        (ih rest fun other member => given other (List.mem_cons_of_mem _ member))

end Sets

section Open

variable {machine : Machine} {id : LayerId} {layer : Layer}

/-- A parameter is loaded into an open layer exactly where it can be staged. -/
private theorem loadParameter_iff (there : machine.layers[id]? = some layer)
    (unready : layer.materialized = false) (entry : String × Handle) :
    (∃ after, loadParameter id entry.1 entry.2 machine = .ok () after) ↔
      layer.Stages machine entry := by
  rw [loadParameter_open there unready]
  simp only [Layer.Stages, bind, EStateM.bind]
  cases layer.stage entry.1 entry.2 machine with
  | ok parameter staged =>
    exact ⟨fun _ => ⟨parameter, staged, rfl⟩,
      fun _ => ⟨staged.withLayer id (layer.attach parameter), rfl⟩⟩
  | error fault staged =>
    constructor
    · rintro ⟨after, ran⟩
      cases ran
    · rintro ⟨parameter, after, ran⟩
      cases ran

/-- A set is loaded into an open layer exactly where all of it can be staged. -/
private theorem ends_loadParameters_open (there : machine.layers[id]? = some layer)
    (unready : layer.materialized = false) {entries : List (String × Handle)}
    (given : ∀ entry ∈ entries, machine.memory.HasValue entry.2) :
    (loadParameters id entries).Ends machine
      (fun _ after => (∀ entry ∈ entries, layer.Stages machine entry) ∧ ∃ parameters,
        after.layers[id]? = some (parameters.foldl Layer.attach layer) ∧
        List.Forall₂ (Arrived layer machine after) entries.reverse parameters)
      (fun _ _ => ∃ entry ∈ entries, ¬layer.Stages machine entry) := by
  unfold Ends
  rw [loadParameters_open there unready]
  change Ends (_ >>= _) machine _ _
  rw [ends_bind]
  refine (ends_stageAll_arrived layer entries.reverse (.refl machine) fun entry member =>
    given entry (List.mem_reverse.mp member)).mono (fun parameters staged arrived => ?_)
    fun _ _ failed => ?_
  · obtain ⟨followed, stages, arrived⟩ := arrived
    obtain ⟨inside, -⟩ := Array.getElem?_eq_some_iff.mp there
    refine ⟨fun entry member => stages entry (List.mem_reverse.mpr member), parameters, ?_, ?_⟩
    · simp [followed.layers, inside]
    · exact arrived.imp fun _ _ first => first.later ⟨rfl, rfl, .refl _ _⟩
  · obtain ⟨entry, member, fails⟩ := failed
    exact ⟨entry, List.mem_reverse.mp member, fails⟩

/-- A materialized layer takes sets without parameters alone. -/
private theorem loadParameters_closed (there : machine.layers[id]? = some layer)
    (done : layer.materialized = true) {entries : List (String × Handle)} {after : Machine}
    (ran : loadParameters id entries machine = .ok () after) : entries = [] ∧ after = machine := by
  rcases List.eq_nil_or_concat entries with rfl | ⟨rest, ⟨name, value⟩, rfl⟩
  · cases (loadParameters_nil there).symm.trans ran
    exact ⟨rfl, rfl⟩
  · rw [List.concat_eq_append, loadParameters_frozen there done] at ran
    cases ran

end Open

theorem Layer.Untouched.widen {names more : List String} {layer later : Layer}
    (untouched : layer.Untouched names later) (subset : ∀ name ∈ names, name ∈ more) :
    layer.Untouched more later :=
  { untouched with
    weight := fun none => untouched.weight (mt (subset _) none)
    bias := fun none => untouched.bias (mt (subset _) none)
    scales := fun role none => untouched.scales role (mt (subset _) none) }

section Load

variable {machine : Machine} {id : LayerId} {layer : Layer} {entries : List (String × Handle)}
  (there : machine.layers[id]? = some layer)
  (given : ∀ entry ∈ entries, machine.memory.HasValue entry.2)

include there given

/-- A set is loaded exactly where each of its parameters could be loaded on its own. -/
private theorem loadParameters_iff_each :
    (∃ after, loadParameters id entries machine = .ok () after) ↔
      ∀ entry ∈ entries, ∃ after, loadParameter id entry.1 entry.2 machine = .ok () after := by
  cases ready : layer.materialized with
  | true =>
    constructor
    · rintro ⟨after, ran⟩ entry member
      rw [(loadParameters_closed there ready ran).1] at member
      cases member
    · intro each
      cases entries with
      | nil => exact ⟨machine, loadParameters_nil there⟩
      | cons entry rest =>
        obtain ⟨after, ran⟩ := each entry List.mem_cons_self
        cases (loadParameter_frozen there ready entry.1 entry.2).symm.trans ran
  | false =>
    have ended := ends_loadParameters_open there ready given
    constructor
    · rintro ⟨after, ran⟩ entry member
      exact (loadParameter_iff there ready entry).mpr ((ended.answer ran).1 entry member)
    · intro each
      obtain ⟨⟨⟩, after, ran, -⟩ := ended.returned_of fun _ _ ⟨entry, member, fails⟩ =>
        fails ((loadParameter_iff there ready entry).mp (each entry member))
      exact ⟨after, ran⟩

/-- A set that is loaded leaves the layer as its parameters do that are loaded one by one. -/
private theorem loadParameters_same (distinct : (entries.map (·.1)).Nodup) {after : Machine}
    (ran : loadParameters id entries machine = .ok () after) :
    ∃ later, after.layers[id]? = some later ∧ layer.Untouched (entries.map (·.1)) later ∧
      ∀ order : List (String × Handle), order.Perm entries → ∃ last other,
        loadEach id order machine = .ok () last ∧ last.layers[id]? = some other ∧
        later.SameUpToCopies machine.memory after.memory last.memory other := by
  cases ready : layer.materialized with
  | true =>
    obtain ⟨rfl, rfl⟩ := loadParameters_closed there ready ran
    refine ⟨layer, there, layer.untouched_refl _, fun order perm => ?_⟩
    cases perm.eq_nil
    exact ⟨after, layer, rfl, there, layer.sameUpToCopies_refl ..⟩
  | false =>
    obtain ⟨stages, parameters, found, arrived⟩ :=
      (ends_loadParameters_open there ready given).answer ran
    have names : parameters.map (·.name) = (entries.map (·.1)).reverse := by
      rw [names_of_arrived arrived, List.map_reverse]
    refine ⟨_, found, (layer.untouched_attachAll parameters).widen fun name member => ?_,
      fun order perm => ?_⟩
    · rw [names] at member
      exact List.mem_reverse.mp member
    · obtain ⟨last, others, loaded, final, -, arrivals⟩ := loadEach_arrived order (.refl machine)
        there ready rfl rfl (fun entry member => given entry (perm.subset member))
        fun entry member => stages entry (perm.subset member)
      -- the same parameters as arrived in the other order, listed in that of the set
      obtain ⟨listed, again, reordered⟩ :=
        List.perm_comp_forall₂ ((List.reverse_perm entries).trans perm.symm) arrivals
      have unique : (listed.map (·.name)).Nodup := by
        rw [names_of_arrived again, List.map_reverse]
        exact List.nodup_reverse.mpr distinct
      refine ⟨last, _, loaded, final, ?_⟩
      rw [← layer.attachAll_perm reordered unique]
      exact (layer.sameUpToCopies_refl ..).attachAll (same_of_arrived arrived again
        fun entry member => given entry (List.mem_reverse.mp member))

end Load

/-- Loading a set of parameters is atomic and does not depend on their order. It succeeds exactly
where each parameter could be loaded on its own; where it fails every layer is as it was. Where it
succeeds all that was not named is as it was, and loading the parameters one by one in any order
succeeds and leaves behind the same layer, up to the identity of copies across devices. -/
theorem loadParameters_like_each {machine : Machine} {id : LayerId} {layer : Layer}
    {entries : List (String × Handle)} (there : machine.layers[id]? = some layer)
    (distinct : (entries.map (·.1)).Nodup)
    (given : ∀ entry ∈ entries, machine.memory.HasValue entry.2) :
    ((∃ after, loadParameters id entries machine = .ok () after) ↔
        ∀ entry ∈ entries, ∃ after, loadParameter id entry.1 entry.2 machine = .ok () after) ∧
      (∀ fault after, loadParameters id entries machine = .error fault after →
        machine.Follows [] after) ∧
      ∀ after, loadParameters id entries machine = .ok () after →
        ∃ later, after.layers[id]? = some later ∧ layer.Untouched (entries.map (·.1)) later ∧
          ∀ order : List (String × Handle), order.Perm entries → ∃ last other,
            loadEach id order machine = .ok () last ∧ last.layers[id]? = some other ∧
            later.SameUpToCopies machine.memory after.memory last.memory other :=
  ⟨loadParameters_iff_each there given,
    fun _ _ failed => (ends_loadParameters_attached id entries machine).failure failed,
    fun _ ran => loadParameters_same there given distinct ran⟩

/-- A weight on another device of the host, which is copied, and a scale that is cleared. -/
def entriesFromAway : List (String × Handle) :=
  [("weight", some { Layer.unloaded.weight with device := ⟨.cpu, 1⟩ }), ("weight_scale", none)]

theorem loadParameters_like_each_fromAway : ∃ after later last other,
    loadParameters 0 entriesFromAway .unloaded = .ok () after ∧ after.layers[0]? = some later ∧
      loadEach 0 entriesFromAway.reverse .unloaded = .ok () last ∧ last.layers[0]? = some other ∧
      later.SameUpToCopies Machine.unloaded.memory after.memory last.memory other := by
  have given : ∀ entry ∈ entriesFromAway, Machine.unloaded.memory.HasValue entry.2 := by
    intro entry member tensor present
    simp only [entriesFromAway, List.mem_cons, List.not_mem_nil, or_false] at member
    rcases member with rfl | rfl
    · cases present
      exact ⟨rfl, by decide⟩
    · cases present
  obtain ⟨loads, -, same⟩ := loadParameters_like_each
    (rfl : Machine.unloaded.layers[0]? = some .unloaded) (by decide) given
  obtain ⟨after, ran⟩ := loads.mpr fun entry member => by
    simp only [entriesFromAway, List.mem_cons, List.not_mem_nil, or_false] at member
    rcases member with rfl | rfl
    · exact ⟨_, rfl⟩
    · exact ⟨_, rfl⟩
  obtain ⟨later, found, -, orders⟩ := same after ran
  obtain ⟨last, other, loaded, final, alike⟩ := orders _ (List.reverse_perm entriesFromAway)
  exact ⟨after, later, last, other, ran, found, loaded, final, alike⟩

end QuantLinear
