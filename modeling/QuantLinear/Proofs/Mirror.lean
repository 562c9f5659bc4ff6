import QuantLinear.Layer.Materialize
import QuantLinear.Proofs.Action
import QuantLinear.Proofs.Parallel
import QuantLinear.Proofs.Kernel.Settled

/-!
Two runs of one action.

Preparing a layer asks a machine for its runtimes and its kernels and reads no bytes to decide
anything. Two machines that agree on these answer alike (`Mirrors`): both return or both fail with
the same fault, and what they return differs in storages and handles alone. In particular a call
that failed fails again in the same way.
-/

namespace QuantLinear

/-- Machines with the same runtimes and kernels. -/
structure Machine.Alike (left right : Machine) : Prop where
  runtimes : right.runtimes = left.runtimes
  kernels : right.kernels = left.kernels

/-- Views that differ at most in where their bytes lie. -/
structure View.Like (left right : View) : Prop where
  kind : right.kind = left.kind
  shape : right.shape = left.shape
  strides : right.strides = left.strides
  device : right.device = left.device

theorem View.Like.refl (v : View) : v.Like v := ⟨rfl, rfl, rfl, rfl⟩

theorem View.Like.isContiguous {left right : View} (like : left.Like right) :
    right.isContiguous = left.isContiguous := by
  rw [View.isContiguous, View.isContiguous, like.shape, like.strides]

namespace Action

/-- From machines that are alike two actions both return, with related answers, or both fail with
one fault, and the machines stay alike. -/
def Mirrors {α β : Type} (related : α → β → Prop) (left : Action α) (right : Action β) : Prop :=
  ∀ before other : Machine, before.Alike other →
    match left before, right other with
    | .ok answer after, .ok same later => related answer same ∧ after.Alike later
    | .error fault after, .error same later => same = fault ∧ after.Alike later
    | _, _ => False

/-- What machines that are alike have in common, and that they fail with one fault. -/
def alike : Bond Machine Machine where
  states := Machine.Alike
  faults fault other := other = fault

section Laws

variable {α β γ δ : Type} {related : α → β → Prop}

private theorem mirrors_iff_parallel {left : Action α} {right : Action β} :
    Mirrors related left right ↔ Parallel alike related left right := by
  refine forall_congr' fun before => forall_congr' fun other => imp_congr_right fun _ => ?_
  cases left before <;> cases right other <;> rfl

private theorem mirrors_pure {answer : α} {same : β} (agree : related answer same) :
    Mirrors related (pure answer) (pure same) := fun _ _ alike => ⟨agree, alike⟩

private theorem mirrors_throw (fault : Fault) :
    Mirrors related (throw fault) (throw fault) := fun _ _ alike => ⟨rfl, alike⟩

theorem Mirrors.bind {left : Action α} {right : Action β} {next : α → Action γ} {other : β → Action δ}
    {results : γ → δ → Prop} (first : Mirrors related left right)
    (second : ∀ answer same, related answer same → Mirrors results (next answer) (other same)) :
    Mirrors results (left >>= next) (right >>= other) :=
  mirrors_iff_parallel.mpr ((mirrors_iff_parallel.mp first).bind
    fun answer same agree => mirrors_iff_parallel.mp (second answer same agree))

theorem Mirrors.mono {weaker : α → β → Prop} {left : Action α} {right : Action β}
    (mirrored : Mirrors related left right)
    (weaken : ∀ answer same, related answer same → weaker answer same) :
    Mirrors weaker left right :=
  mirrors_iff_parallel.mpr ((mirrors_iff_parallel.mp mirrored).mono weaken)

/-- Computations that need no machine, and of which both succeed or both fail with one fault. -/
private theorem mirrors_lift {left : Except Fault α} {right : Except Fault β}
    (agree : left.map (fun _ => ()) = right.map fun _ => ()) :
    Mirrors (fun answer same => left = .ok answer ∧ right = .ok same) (liftM left) (liftM right) := by
  cases left with
  | ok answer =>
    cases right with
    | ok same => exact mirrors_pure ⟨rfl, rfl⟩
    | error fault => cases agree
  | error fault =>
    cases right with
    | ok same => cases agree
    | error same =>
      cases agree
      exact mirrors_throw fault

private theorem mirrors_same (computation : Except Fault α) :
    Mirrors Eq (liftM computation : Action α) (liftM computation) :=
  (mirrors_lift rfl).mono fun _ _ both => Except.ok.inj (both.1.symm.trans both.2)

private theorem mirrors_get : Mirrors Machine.Alike get get := fun _ _ alike => ⟨alike, alike⟩

private theorem mirrors_modify {change other : Machine → Machine}
    (kept : ∀ machine : Machine, machine.Alike (change machine))
    (keeps : ∀ machine : Machine, machine.Alike (other machine)) :
    Mirrors (fun _ _ => True) (modify change) (modify other) := by
  intro before later alike
  refine ⟨trivial, ?_, ?_⟩
  · rw [(keeps later).runtimes, alike.runtimes, (kept before).runtimes]
  · rw [(keeps later).kernels, alike.kernels, (kept before).kernels]

private theorem mirrors_ite {condition : Prop} [Decidable condition] {yes no : Action α}
    {yes' no' : Action β} (held : condition → Mirrors related yes yes')
    (failed : ¬condition → Mirrors related no no') :
    Mirrors related (if condition then yes else no) (if condition then yes' else no') := by
  split
  · exact held ‹_›
  · exact failed ‹_›

end Laws

end Action

open QuantLinear.Action

private theorem mirrors_requireRuntime (device : Device) :
    Mirrors Eq (requireRuntime device) (requireRuntime device) := by
  refine mirrors_get.bind fun machine other alike => ?_
  rw [alike.runtimes]
  cases machine.runtimes device.type with
  | some runtime => exact mirrors_pure rfl
  | none => exact mirrors_throw _

private theorem mirrors_countUpload (runtime : Runtime) :
    Mirrors (fun _ _ => True) (countUpload runtime) (countUpload runtime) := by
  cases runtime with
  | builtin => exact mirrors_pure trivial
  | hosted serial => exact mirrors_modify (fun _ => ⟨rfl, rfl⟩) fun _ => ⟨rfl, rfl⟩

private theorem mirrors_modifyMemory (change other : Memory → Memory) :
    Mirrors (fun _ _ => True) (modifyMemory change) (modifyMemory other) :=
  mirrors_modify (fun _ => ⟨rfl, rfl⟩) fun _ => ⟨rfl, rfl⟩

/-- New tensors of two runs: dense views of storages of their own. -/
structure Twins (kind : ElementKind) (shape : Shape) (device : Device) (x y : Tensor) : Prop where
  left : x.toView = View.dense kind shape x.storage device
  right : y.toView = View.dense kind shape y.storage device

namespace Twins

variable {kind : ElementKind} {shape : Shape} {device : Device} {x y : Tensor}

theorem like (twins : Twins kind shape device x y) : x.toView.Like y.toView := by
  rw [twins.left, twins.right]
  exact ⟨rfl, rfl, rfl, rfl⟩

theorem shapes (twins : Twins kind shape device x y) : x.shape = shape ∧ y.shape = shape := by
  rw [twins.left, twins.right]
  exact ⟨rfl, rfl⟩

theorem kinds (twins : Twins kind shape device x y) : x.kind = kind ∧ y.kind = kind := by
  rw [twins.left, twins.right]
  exact ⟨rfl, rfl⟩

theorem isContiguous (twins : Twins kind shape device x y) :
    x.isContiguous = true ∧ y.isContiguous = true := by
  rw [twins.left, twins.right]
  exact ⟨Shape.isContiguous_contiguousStrides shape, Shape.isContiguous_contiguousStrides shape⟩

end Twins

private theorem mirrors_place (bytes : List UInt8) (kind : ElementKind) (shape : Shape)
    (device : Device) :
    Mirrors (Twins kind shape device) (place bytes (View.dense kind shape · device))
      (place bytes (View.dense kind shape · device)) := by
  refine mirrors_get.bind fun machine other _ => ?_
  refine (mirrors_modifyMemory _ _).bind fun _ _ _ => ?_
  exact fun _ _ alike => ⟨⟨rfl, rfl⟩, alike.runtimes, alike.kernels⟩

private theorem mirrors_allocateTensor (shape : Shape) (kind : ElementKind) (device : Device) :
    Mirrors (Twins kind shape device) (allocateTensor shape kind device)
      (allocateTensor shape kind device) := by
  refine (mirrors_requireRuntime device).bind fun _ _ _ => ?_
  exact mirrors_place _ kind shape device

private theorem mirrors_fillTensor {kind : ElementKind} {shape : Shape} {device : Device} {x y : Tensor}
    (twins : Twins kind shape device x y) (word : Nat) :
    Mirrors (fun _ _ => True) (fillTensor x word) (fillTensor y word) := by
  obtain ⟨v, handle⟩ := x
  obtain ⟨w, other⟩ := y
  obtain ⟨storage, rfl⟩ : ∃ storage, v = View.dense kind shape storage device := ⟨_, twins.left⟩
  obtain ⟨storage, rfl⟩ : ∃ storage, w = View.dense kind shape storage device := ⟨_, twins.right⟩
  refine (mirrors_same _).bind fun _ _ _ => ?_
  refine mirrors_ite (fun _ => mirrors_modifyMemory _ _) fun _ => ?_
  refine (mirrors_requireRuntime device).bind fun runtime _ same => ?_
  subst same
  exact (mirrors_countUpload runtime).bind fun _ _ _ => mirrors_modifyMemory _ _

private theorem mirrors_filledTensor (shape : Shape) (value : Binary64) (kind : ElementKind)
    (device : Device) :
    Mirrors (Twins kind shape device) (filledTensor shape value kind device)
      (filledTensor shape value kind device) := by
  refine (mirrors_same kind.encodable).bind fun encoding _ same => ?_
  subst same
  refine (mirrors_allocateTensor shape kind device).bind fun _ _ twins => ?_
  exact (mirrors_fillTensor twins _).bind fun _ _ _ => mirrors_pure twins

/-- A kernel whose refusals do not depend on bytes. -/
private theorem mirrors_launch (kernel : Kernel) (type : DeviceType) {work again : Work Unit}
    {run rerun : Memory → Except Fault Memory} (settles : ∀ mem, work.Settles mem (run mem))
    (resettles : ∀ mem, again.Settles mem (rerun mem))
    (blind : ∀ mem other, (run mem).map (fun _ => ()) = (rerun other).map (fun _ => ())) :
    Mirrors (fun _ _ => True) (launch kernel type work) (launch kernel type again) := by
  have started : Mirrors (fun _ _ => True) (perform work) (perform again) := by
    intro before later alike
    have first := settles before.memory
    have second := resettles later.memory
    have agree := blind before.memory later.memory
    cases ran : run before.memory <;> cases reran : rerun later.memory <;>
      rw [ran, reran] at agree <;> rw [ran] at first <;> rw [reran] at second
    · cases agree
      simp only [perform, show work before.memory = _ from first,
        show again later.memory = _ from second]
      exact ⟨trivial, alike.runtimes, alike.kernels⟩
    · cases agree
    · cases agree
    · simp only [perform, show work before.memory = _ from first,
        show again later.memory = _ from second]
      exact ⟨trivial, alike.runtimes, alike.kernels⟩
  refine mirrors_get.bind fun machine other alike => ?_
  rw [alike.kernels]
  cases machine.kernels.find? kernel type with
  | none => exact mirrors_throw _
  | some launcher =>
    cases launcher with
    | reference => exact started
    | counting =>
      refine Mirrors.bind (mirrors_modify ?_ ?_) fun _ _ _ => started
      · exact fun _ => ⟨rfl, rfl⟩
      · exact fun _ => ⟨rfl, rfl⟩
    | failing => exact mirrors_throw _

private theorem map_bind_congr {α β : Type} {first : Except Fault α} {next other : α → Except Fault β}
    (agree : ∀ value, (next value).map (fun _ => ()) = (other value).map fun _ => ()) :
    (first >>= next).map (fun _ => ()) = (first >>= other).map fun _ => () := by
  cases first with
  | ok value => exact agree value
  | error fault => rfl

section Copies

variable {target other source same : Tensor} (sources : source.toView.Like same.toView)

private theorem mirrors_copyDense (target other source same : View) :
    Mirrors (fun _ _ => True) (copyDense target source) (copyDense other same) :=
  mirrors_modifyMemory _ _

private theorem mirrors_uploadDense {target other : View} (targets : target.Like other)
    (source same : View) :
    Mirrors (fun _ _ => True) (uploadDense target source) (uploadDense other same) := by
  rw [uploadDense, uploadDense, targets.device]
  refine (mirrors_requireRuntime _).bind fun runtime _ agree => ?_
  subst agree
  refine (mirrors_countUpload runtime).bind fun _ _ _ => ?_
  exact mirrors_copyDense _ _ _ _

private theorem mirrors_downloadDense (target other : View) {source same : View}
    (sources : source.Like same) :
    Mirrors (fun _ _ => True) (downloadDense target source) (downloadDense other same) := by
  rw [downloadDense, downloadDense, sources.device]
  exact (mirrors_requireRuntime _).bind fun _ _ _ => mirrors_copyDense _ _ _ _

include sources

/-- Rearranging to a new tensor of the same shape and kind, whose checks cannot fail. -/
private theorem mirrors_rearrangeInto
    (targets : Twins source.kind source.shape source.device target other) :
    Mirrors (fun _ _ => True) (rearrangeInto (some target) (some source))
      (rearrangeInto (some other) (some same)) := by
  have devices : requireSameDevice (some other) [some same] =
      requireSameDevice (some target) [some source] := by
    simp [requireSameDevice, Handle.defined, targets.like.device, sources.device]
  simp only [rearrangeInto, bind_defined, devices, targets.shapes, targets.kinds, sources.shape,
    sources.kind, sources.device, BEq.rfl, Bool.and_self, require, if_true]
  refine (mirrors_same _).bind fun _ _ _ => ?_
  refine (mirrors_same (pure ())).bind fun _ _ _ => ?_
  exact mirrors_launch _ _ (Work.settles_rearrange target.toView source.toView)
    (Work.settles_rearrange other.toView same.toView) fun _ _ => rfl

private theorem mirrors_rearranged :
    Mirrors (fun x y => x.toView.Like y.toView) (rearranged (some source)) (rearranged (some same)) := by
  simp only [rearranged, bind_defined, sources.shape, sources.kind, sources.device]
  refine (mirrors_allocateTensor _ _ _).bind fun copy again twins => ?_
  refine (mirrors_rearrangeInto sources twins).bind fun _ _ _ => ?_
  exact mirrors_pure twins.like

private theorem mirrors_contiguousTensor :
    Mirrors (fun x y => x.toView.Like y.toView) (contiguousTensor source) (contiguousTensor same) := by
  simp only [contiguousTensor, sources.isContiguous]
  exact mirrors_ite (fun _ => mirrors_pure sources) fun _ => mirrors_rearranged sources

/-- Copying to a new tensor of another device, which has no gaps to go around. -/
private theorem mirrors_copyBetween {kind : ElementKind} {shape : Shape} {device : Device}
    (targets : Twins kind shape device target other) :
    Mirrors (fun _ _ => True) (copyBetween target source) (copyBetween other same) := by
  simp only [copyBetween, copyAcross, targets.isContiguous, targets.like.device, sources.shape,
    sources.kind, sources.device, if_true]
  refine mirrors_ite (fun _ => mirrors_downloadDense _ _ sources) fun _ => ?_
  refine mirrors_ite (fun _ => mirrors_uploadDense targets.like _ _) fun _ => ?_
  refine (mirrors_allocateTensor _ _ _).bind fun onHost again twins => ?_
  simp only [twins.isContiguous, if_true]
  refine (mirrors_downloadDense _ _ sources).bind fun _ _ _ => ?_
  exact mirrors_uploadDense targets.like _ _

end Copies

private theorem mirrors_toDevice (source : Tensor) (device : Device) :
    Mirrors (fun x y => x.toView.Like y.toView) (toDevice source device) (toDevice source device) := by
  refine mirrors_ite (fun _ => mirrors_pure (.refl _)) fun away => ?_
  refine (mirrors_allocateTensor _ _ _).bind fun copy again twins => ?_
  have here : copy.device = device := congrArg View.device twins.left
  refine Mirrors.bind (?_ : Mirrors (fun _ _ => True) _ _) fun _ _ _ => mirrors_pure twins.like
  simp only [copyInto, bind_defined, twins.like.shape, twins.like.kind, twins.like.device, here,
    if_neg away]
  refine (mirrors_same _).bind fun _ _ _ => ?_
  refine (mirrors_same _).bind fun _ _ _ => ?_
  refine (mirrors_contiguousTensor (.refl _)).bind fun dense same sources => ?_
  exact mirrors_copyBetween sources twins

section Layer

variable (layer : Layer)

private theorem mirrors_readyScale (role : ScaleRole) :
    Mirrors (fun _ _ => True) (readyScale layer role) (readyScale layer role) := by
  refine (mirrors_same _).bind fun expected _ same => ?_
  subst same
  cases (layer.scales.get role).tensor? with
  | none =>
    refine (mirrors_filledTensor _ _ _ _).bind fun _ _ _ => ?_
    exact mirrors_pure trivial
  | some scale =>
    refine (mirrors_same _).bind fun _ _ _ => ?_
    refine (mirrors_same _).bind fun _ _ _ => ?_
    refine mirrors_ite (fun _ => ?_) fun _ => ?_
    · refine (mirrors_contiguousTensor (.refl _)).bind fun _ _ _ => ?_
      exact mirrors_pure trivial
    · refine (mirrors_toDevice _ _).bind fun moved same like => ?_
      refine (mirrors_contiguousTensor like).bind fun _ _ _ => ?_
      exact mirrors_pure trivial

private theorem mirrors_readyScales (roles : List ScaleRole) (slots same : ScaleSlots) :
    Mirrors (fun _ _ => True) (readyScales layer slots roles) (readyScales layer same roles) := by
  induction roles generalizing slots same with
  | nil => exact mirrors_pure trivial
  | cons role rest ih =>
    refine (mirrors_readyScale layer role).bind fun _ _ _ => ?_
    refine (ih _ _).bind fun _ _ _ => ?_
    exact mirrors_pure trivial

/-- Packing refuses weights and targets for their kinds, shapes and layouts. -/
private theorem mirrors_repacked (weight : Tensor) :
    Mirrors (fun _ _ => True) (repacked (some weight)) (repacked (some weight)) := by
  simp only [repacked, bind_defined]
  refine (mirrors_same _).bind fun _ _ _ => ?_
  refine (mirrors_allocateTensor _ _ _).bind fun packed again twins => ?_
  refine Mirrors.bind (?_ : Mirrors (fun _ _ => True) _ _) fun _ _ _ => mirrors_pure trivial
  have devices : requireSameDevice (some again) [some weight] =
      requireSameDevice (some packed) [some weight] := by
    simp [requireSameDevice, Handle.defined, twins.like.device]
  simp only [repackInto, bind_defined, devices]
  refine (mirrors_same _).bind fun _ _ _ => ?_
  refine mirrors_launch _ _ (Work.settles_repack packed.toView weight.toView)
    (Work.settles_repack again.toView weight.toView) fun mem other => ?_
  simp only [Kernel.runRepack, twins.like.kind, twins.like.shape, twins.like.isContiguous]
  refine map_bind_congr fun _ => map_bind_congr fun _ => map_bind_congr fun _ => ?_
  split <;> rfl

private theorem mirrors_readyWeight :
    Mirrors (fun _ _ => True) (readyWeight layer) (readyWeight layer) := by
  refine mirrors_ite (fun _ => ?_) fun _ => mirrors_pure trivial
  refine (mirrors_same _).bind fun _ _ _ => ?_
  refine (mirrors_repacked layer.weight).bind fun _ _ _ => ?_
  exact mirrors_pure trivial

/-- Preparing a layer fails on two machines that are alike for one reason, or on neither. -/
theorem mirrors_materialized :
    Mirrors (fun _ _ => True) (materialized layer) (materialized layer) := by
  refine (mirrors_readyScales layer _ _ _).bind fun _ _ _ => ?_
  refine (mirrors_readyWeight layer).bind fun _ _ _ => ?_
  exact mirrors_pure trivial

end Layer

end QuantLinear
