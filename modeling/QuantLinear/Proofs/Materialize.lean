import QuantLinear.Layer.Materialize
import QuantLinear.Proofs.Copies
import QuantLinear.Proofs.Kernel.Packed

/-!
Materializing a layer changes the layer as a whole or not at all.

Everything is made ready aside: the scales in the order of the variant, each loaded one copied where
it must be and each missing one made of ones, and the weight packed where the variant asks for it.
Whatever fails on the way leaves all layers, counts and reports alone. Once all is ready the layer
changes in one step, and only then is the observer told, who may fail but takes nothing back.
-/

namespace QuantLinear

/-- A tensor of floating kind that reads as ones. -/
def Memory.AllOnes (mem : Memory) (tensor : Tensor) : Prop :=
  ∃ kind, tensor.kind = .float kind ∧ ∀ place < tensor.numel.toNat,
    mem.number tensor.toView kind (tensor.shape.indexAt place) = Binary32.one

/-- Every kind stores the number one exactly. -/
private theorem FloatKind.decode_one (kind : FloatKind) :
    kind.decode (kind.encodeDouble ⟨0x3FF0000000000000⟩) = Binary32.one ∧
      kind.encodeDouble ⟨0x3FF0000000000000⟩ < 256 ^ kind.size := by
  -- the kernel computes with the words of the five kinds
  cases kind <;> decide +kernel

namespace Layer

def required (layer : Layer) : List ScaleRole := layer.variant.requiredScales layer.spec

/-- The shape that a required scale of a layer must have. -/
def scaleShape (layer : Layer) (role : ScaleRole) : Shape :=
  match layer.variant.expectedShape (some role) layer.spec with
  | .ok shape => shape
  | .error _ => []

/-- The report on a scale that is made up for a layer. -/
def placeholder (layer : Layer) (role : ScaleRole) : Placeholder :=
  ⟨layer.spec.path, role, layer.scaleShape role, layer.spec.paramsKind, layer.weight.device⟩

def lacks (layer : Layer) (role : ScaleRole) : Bool := (layer.scales.get role).tensor?.isNone

/-- The reports on all scales that are made up for a layer, in the order they are prepared. -/
def madeUp (layer : Layer) : List Placeholder :=
  (layer.required.filter layer.lacks).map layer.placeholder

/-- A scale that no one loaded, or one of the right shape and of a floating kind. -/
def Suits (layer : Layer) (role : ScaleRole) : Prop :=
  ∀ loaded, (layer.scales.get role).tensor? = some loaded →
    loaded.shape = layer.scaleShape role ∧ loaded.kind.isFloating = true

/-- Whether all scales that no one loaded can be made up: the bytes of none of them wrap. -/
def Fillable (layer : Layer) : Prop :=
  ∀ role ∈ layer.required, layer.lacks role = true →
    (layer.scaleShape role).numel.toNat * layer.spec.paramsKind.size < 2 ^ 64

/-- The failure of a layer that has no room for a scale: the ones of the scale reach past the bytes that
were asked for it. -/
def Overruns (layer : Layer) (fault : Fault) : Prop := fault = .tensor .overrun ∧ ¬layer.Fillable

theorem expectedShape_of_required {layer : Layer} {role : ScaleRole}
    (member : role ∈ layer.required) :
    layer.variant.expectedShape (some role) layer.spec = .ok (layer.scaleShape role) := by
  have shaped : ∃ shape, layer.variant.expectedShape (some role) layer.spec = .ok shape := by
    rw [required] at member
    cases found : layer.variant with
    | standard granularity =>
      rw [found, Variant.requiredScales] at member
      cases role <;> cases granularity <;> simp [Variant.expectedShape, pure, Except.pure]
      all_goals split at member <;> simp at member
    | block rows columns =>
      rw [found, Variant.requiredScales] at member
      cases List.mem_singleton.mp member
      exact ⟨_, rfl⟩
    | packed =>
      rw [found, Variant.requiredScales] at member
      cases List.mem_singleton.mp member
      exact ⟨_, rfl⟩
  obtain ⟨shape, found⟩ := shaped
  rw [scaleShape, found]

private theorem nodup_required (layer : Layer) : layer.required.Nodup := by
  rw [required]
  cases layer.variant with
  | standard granularity =>
    rw [Variant.requiredScales]
    split <;> decide
  | _ => exact List.nodup_singleton _

end Layer

open QuantLinear.Action

/-- A scale made ready for a layer between two machines. -/
structure ReadyScale (before : Machine) (layer : Layer) (role : ScaleRole) (scale : Tensor)
    (after : Machine) : Prop where
  shape : scale.shape = layer.scaleShape role
  device : scale.device = layer.weight.device
  packed : scale.isContiguous = true
  floating : scale.kind.isFloating = true
  filled : layer.lacks role = true →
    (layer.scaleShape role).numel.toNat * layer.spec.paramsKind.size < 2 ^ 64
  ones : layer.lacks role = true → scale.kind = layer.spec.paramsKind ∧
    after.memory.Has scale.toView ∧ after.memory.AllOnes scale
  copy : ∀ loaded, (layer.scales.get role).tensor? = some loaded →
    Copied before loaded scale after ∧
      (loaded.device = layer.weight.device → loaded.isContiguous = true → scale = loaded)

namespace ReadyScale

variable {before middle after : Machine} {layer : Layer} {role : ScaleRole} {scale : Tensor}

theorem later (ready : ReadyScale before layer role scale middle)
    (followed : middle.Follows [] after) : ReadyScale before layer role scale after where
  shape := ready.shape
  device := ready.device
  packed := ready.packed
  floating := ready.floating
  filled := ready.filled
  ones lacking := by
    obtain ⟨kind, there, float, kind_eq, numbers⟩ := ready.ones lacking
    refine ⟨kind, there.later followed.memory, float, kind_eq, fun place below => ?_⟩
    rw [followed.memory.number there List.not_mem_nil]
    exact numbers place below
  copy loaded held := by
    obtain ⟨copied, same⟩ := ready.copy loaded held
    exact ⟨copied.later followed, same⟩

theorem since (followed : before.Follows [] middle)
    (ready : ReadyScale middle layer role scale after) :
    ReadyScale before layer role scale after where
  shape := ready.shape
  device := ready.device
  packed := ready.packed
  floating := ready.floating
  filled := ready.filled
  ones := ready.ones
  copy loaded held := by
    obtain ⟨copied, same⟩ := ready.copy loaded held
    exact ⟨copied.since followed, same⟩

end ReadyScale

/-- The devices that materializing a layer touches are all served, and scales can be made up there. -/
structure Machine.ServesLayer (machine : Machine) (layer : Layer) : Prop where
  weight : machine.Serves layer.weight.device
  scales : ∀ role loaded, (layer.scales.get role).tensor? = some loaded →
    machine.Serves loaded.device
  params : layer.spec.paramsKind.isFloating = true

theorem Machine.ServesLayer.later {changed : List Nat} {before after : Machine} {layer : Layer}
    (serves : before.ServesLayer layer) (followed : before.Follows changed after) :
    after.ServesLayer layer where
  weight := serves.weight.later followed
  scales role loaded held := (serves.scales role loaded held).later followed
  params := serves.params

/-- A loaded scale that suits is ready once it is on the weight's device and has no gaps. -/
private theorem ends_movedScale {machine middle : Machine} {layer : Layer} {role : ScaleRole}
    {loaded moved : Tensor} (held : (layer.scales.get role).tensor? = some loaded)
    (suits : layer.Suits role) (copied : Copied machine loaded moved middle)
    (there : moved.device = layer.weight.device)
    (same : loaded.device = layer.weight.device → moved = loaded ∧ middle = machine) :
    (contiguousTensor moved).Ends middle
      (fun scale after => machine.Follows [] after ∧ ReadyScale machine layer role scale after)
      (fun _ after => machine.Follows [] after ∧ ¬machine.Serves layer.weight.device) := by
  refine (ends_contiguousTensor moved middle).mono (fun scale after final => ?_)
    fun _ after failed => ?_
  · obtain ⟨last, device, packed, kept, -⟩ := final
    have whole := copied.trans last
    have present : layer.lacks role = false := by
      rw [Layer.lacks, held]
      rfl
    refine ⟨whole.follows, ⟨?_, device.trans there, packed, ?_, fun lacking => ?_, fun lacking => ?_,
      fun other again => ?_⟩⟩
    · rw [whole.shape, (suits loaded held).1]
    · rw [whole.kind, (suits loaded held).2]
    · cases present.symm.trans lacking
    · cases present.symm.trans lacking
    · cases held.symm.trans again
      -- neither the move nor the rearrangement made a copy
      refine ⟨whole, fun home tidy => ?_⟩
      obtain ⟨rfl, rfl⟩ := same home
      exact (kept tidy).1
  · refine ⟨copied.follows.trans failed.1, fun serves => absurd ?_ failed.2⟩
    rw [there]
    exact serves.later copied.follows

private theorem ends_readyScale (layer : Layer) {role : ScaleRole} (member : role ∈ layer.required)
    (machine : Machine) :
    (readyScale layer role).Ends machine
      (fun made after => machine.Follows [] after ∧ ReadyScale machine layer role made.1 after ∧
        made.2.toList = ([role].filter layer.lacks).map layer.placeholder ∧ layer.Suits role)
      (fun fault after => machine.Follows [] after ∧
        (machine.ServesLayer layer → layer.Suits role → layer.Overruns fault)) := by
  simp only [readyScale, ends_bind, Layer.expectedShape_of_required member, ends_ok]
  cases held : (layer.scales.get role).tensor? with
  | none =>
    have lacking : layer.lacks role = true := by rw [Layer.lacks, held]; rfl
    simp only [oneTensor, ends_bind, ends_pure]
    refine (ends_filledTensor _ _ _ _ machine).mono (fun ones after made => ?_)
      fun _ after failed => ?_
    · obtain ⟨⟨-, -, counted⟩, fresh, kind, float, stored⟩ := made
      refine ⟨fresh.follows, ⟨fresh.shape_eq, fresh.device_eq, fresh.isContiguous, ?_, fun _ => counted,
        ?_, ?_⟩, ?_, ?_⟩
      · rw [float]
        rfl
      · refine fun _ => ⟨fresh.kind_eq, fresh.has, kind, float, fun place below => ?_⟩
        rw [Memory.number, stored kind.decode_one.2 place below, kind.decode_one.1]
      · intro loaded other
        cases held.symm.trans other
      · simp [lacking, Layer.placeholder]
      · intro loaded other
        cases held.symm.trans other
    · refine ⟨failed.1, fun serves _ => ?_⟩
      have found : (machine.runtimes layer.weight.device.type).isSome = true := by
        rw [serves.weight.runtime]
        rfl
      obtain ⟨overrun, large⟩ := failed.2 found serves.params
      exact ⟨overrun, fun fillable => absurd (fillable role member lacking) (Nat.not_lt.mpr large)⟩
  | some loaded =>
    simp only [ends_bind, ends_require, ends_ite, ends_pure]
    refine ⟨fun shape => ⟨fun floating => ?_, fun wrong => ⟨.refl _ _, fun _ suits => ?_⟩⟩,
      fun wrong => ⟨.refl _ _, fun _ suits => ?_⟩⟩
    · have suits : layer.Suits role := by
        intro other again
        cases held.symm.trans again
        exact ⟨by simpa using shape, floating⟩
      have report : (none : Option Placeholder).toList =
          ([role].filter layer.lacks).map layer.placeholder := by simp [Layer.lacks, held]
      -- what follows once the scale is on the weight's device, moved there or not
      have onDevice (moved : Tensor) (middle : Machine) (copied : Copied machine loaded moved middle)
          (there : moved.device = layer.weight.device)
          (same : loaded.device = layer.weight.device → moved = loaded ∧ middle = machine) :
          (contiguousTensor moved).Ends middle
            (fun scale after => machine.Follows [] after ∧
              ReadyScale machine layer role scale after ∧
              (none : Option Placeholder).toList =
                ([role].filter layer.lacks).map layer.placeholder ∧ layer.Suits role)
            (fun fault after => machine.Follows [] after ∧
              (machine.ServesLayer layer → layer.Suits role → layer.Overruns fault)) :=
        (ends_movedScale held suits copied there same).mono
          (fun scale after made => ⟨made.1, made.2, report, suits⟩)
          fun _ after failed => ⟨failed.1, fun serves => absurd serves.weight failed.2⟩
      refine ⟨fun same => onDevice loaded machine (.refl _ _) same fun _ => ⟨rfl, rfl⟩, fun _ => ?_⟩
      refine (ends_toDevice loaded layer.weight.device machine).mono
        (fun moved middle made => onDevice moved middle made.1 made.2.1 made.2.2)
        fun _ after failed => ?_
      exact ⟨failed.1, fun serves =>
        absurd ⟨serves.weight, serves.scales role loaded held⟩ failed.2⟩
    · cases (suits loaded held).2.symm.trans wrong
    · rw [(suits loaded held).1, BEq.rfl] at wrong
      cases wrong

/-- The slots of a layer whose scales `roles` were made ready between two machines. -/
structure ReadySlots (before : Machine) (layer : Layer) (roles : List ScaleRole)
    (slots ready : ScaleSlots) (after : Machine) : Prop where
  held : ∀ role ∈ roles, ∃ scale, ready.get role = .held scale ∧
    ReadyScale before layer role scale after
  others : ∀ role, role ∉ roles → ready.get role = slots.get role
  suits : ∀ role ∈ roles, layer.Suits role

theorem ReadySlots.later {before middle after : Machine} {layer : Layer} {roles : List ScaleRole}
    {slots ready : ScaleSlots} (there : ReadySlots before layer roles slots ready middle)
    (followed : middle.Follows [] after) : ReadySlots before layer roles slots ready after where
  held role member := by
    obtain ⟨scale, found, ready⟩ := there.held role member
    exact ⟨scale, found, ready.later followed⟩
  others := there.others
  suits := there.suits

private theorem ends_readyScales (layer : Layer) (roles : List ScaleRole)
    (required : ∀ role ∈ roles, role ∈ layer.required) (distinct : roles.Nodup)
    (slots : ScaleSlots) (machine : Machine) :
    (readyScales layer slots roles).Ends machine
      (fun made after => machine.Follows [] after ∧
        ReadySlots machine layer roles slots made.1 after ∧
        made.2 = (roles.filter layer.lacks).map layer.placeholder)
      (fun fault after => machine.Follows [] after ∧
        (machine.ServesLayer layer → (∀ role ∈ roles, layer.Suits role) → layer.Overruns fault)) := by
  -- the first scale is ready in every machine that the others lead to
  induction roles generalizing slots machine with
  | nil => exact ⟨.refl _ _, ⟨by simp, fun _ _ => rfl, by simp⟩, rfl⟩
  | cons role rest ih =>
    obtain ⟨new, distinct⟩ := List.nodup_cons.mp distinct
    simp only [readyScales, ends_bind, ends_pure]
    refine (ends_readyScale layer (required role List.mem_cons_self) machine).mono
      (fun made middle first => ?_) fun _ after failed => ?_
    · obtain ⟨followed, ready, report, suits⟩ := first
      refine (ih (fun other member => required other (List.mem_cons_of_mem _ member)) distinct
        (slots.set role (.held made.1)) middle).mono (fun finished after others => ?_)
        fun _ after failed => ?_
      · obtain ⟨later, slots_ready, reports⟩ := others
        refine ⟨followed.trans later, ⟨?_, ?_, ?_⟩, ?_⟩
        · -- no role comes twice, so the others leave the first slot alone
          intro other member
          rcases List.mem_cons.mp member with rfl | member
          · refine ⟨made.1, ?_, ready.later later⟩
            rw [slots_ready.others other new, ScaleSlots.get_set, if_pos rfl]
          · obtain ⟨scale, found, later_ready⟩ := slots_ready.held other member
            exact ⟨scale, found, later_ready.since followed⟩
        · intro other missing
          obtain ⟨different, missing⟩ := not_or.mp (mt List.mem_cons.mpr missing)
          rw [slots_ready.others other missing, ScaleSlots.get_set,
            if_neg (fun same => different same.symm)]
        · intro other member
          rcases List.mem_cons.mp member with rfl | member
          · exact suits
          · exact slots_ready.suits other member
        · rw [report, reports, ← List.map_append, ← List.filter_append]
          rfl
      · refine ⟨followed.trans failed.1, fun serves all => failed.2 (serves.later followed) ?_⟩
        exact fun other member => all other (List.mem_cons_of_mem _ member)
    · exact ⟨failed.1, fun serves all => failed.2 serves (all role List.mem_cons_self)⟩

/-- A weight was packed between two machines: a new tensor of zeros was placed, and the kernel filled
it. -/
structure Repacked (before : Machine) (weight packed : Tensor) (middle after : Machine) : Prop where
  placed : Fresh before .i32 (packedShape (weight.extent 0) (weight.extent 1)) weight.device packed
    middle
  blank : middle.memory = before.memory.allocate (Array.replicate
    (Shape.count (packedShape (weight.extent 0) (weight.extent 1)) * ElementKind.i32.size % 2 ^ 64) 0)
  follows : middle.Follows [packed.storage] after
  ran : Kernel.runRepack packed.toView weight.toView middle.memory = .ok after.memory

/-- The place for the packed form of a weight that can be packed. -/
theorem Fresh.repackOperands {before middle : Machine} {weight packed : Tensor}
    {rows columns : UInt64} (placed : Fresh before .i32
      (packedShape (weight.extent 0) (weight.extent 1)) weight.device packed middle)
    (packable : Kernel.Packable before.memory weight.toView rows columns) :
    Kernel.RepackOperands middle.memory packed.toView weight.toView rows columns := by
  have extents := View.extent_pair packable.shape
  have shape := placed.shape_eq
  rw [extents.1, extents.2] at shape
  refine ⟨packable.later placed.follows.memory, placed.dense ?_, placed.kind_eq, shape,
    placed.apart packable.has⟩
  rw [extents.1, extents.2, count_packedShape packable.columnsTiled packable.fits]
  exact packable.fits

namespace Repacked

variable {before middle after : Machine} {weight packed : Tensor}

theorem fresh (made : Repacked before weight packed middle after) :
    Fresh before .i32 (packedShape (weight.extent 0) (weight.extent 1)) weight.device packed after :=
  made.placed.write made.follows

/-- The packed form shows the numbers of the weight at their positions. -/
theorem numbers (made : Repacked before weight packed middle after) {rows columns : UInt64}
    (packable : Kernel.Packable before.memory weight.toView rows columns) :
    ∀ row < rows.toNat, ∀ column < columns.toNat,
      Kernel.packedNumber after.memory packed.toView rows row column =
        before.memory.number weight.toView .f8 [row, column] := by
  intro row inRows column inColumns
  obtain ⟨mem, ran, numbers⟩ := Kernel.runRepack_spec (made.placed.repackOperands packable)
  cases ran.symm.trans made.ran
  rw [numbers row inRows column inColumns,
    made.placed.follows.memory.number packable.has List.not_mem_nil]

end Repacked

/-- Packing a weight fails on a served device only where the weight cannot be packed. -/
theorem ends_repacked (weight : Tensor) (machine : Machine) :
    (repacked (some weight)).Ends machine
      (fun packed after => ∃ middle, Repacked machine weight packed middle after)
      (fun _ after => machine.Follows [] after ∧ (machine.Serves weight.device →
        ∀ rows columns, ¬Kernel.Packable machine.memory weight.toView rows columns)) := by
  -- The target is made before the kernel checks the weight, so nothing is known of its size yet.
  simp only [repacked, ends_bind, ends_defined, ends_require, ends_pure]
  constructor
  · intro _
    apply (ends_allocateTensor_found _ .i32 weight.device machine).mono _
      (fun _ after failed => ⟨failed.1 ▸ .refl _ _, fun serves =>
        absurd serves (Machine.not_serves failed.2)⟩)
    rintro packed middle ⟨-, fresh, blank⟩
    refine (ends_repackInto packed weight middle).mono
      (fun _ after ended => ⟨middle, fresh, blank, ended.1, ended.2⟩)
      fun _ after failed => ⟨fresh.follows.trans failed.1, fun serves rows columns packable => ?_⟩
    obtain ⟨mem, ran, -⟩ := Kernel.runRepack_spec (fresh.repackOperands packable)
    cases ran.symm.trans (failed.2 (serves.later fresh.follows) fresh.device_eq)
  · intro flat
    refine ⟨.refl _ _, fun _ rows columns packable => ?_⟩
    rw [View.rank, packable.shape] at flat
    cases flat

namespace Layer

/-- Whether the weight of a layer is still to be packed. -/
def ToPack (layer : Layer) : Prop := layer.variant = .packed ∧ layer.repacked = false

def Tiled (layer : Layer) : Prop :=
  layer.spec.outFeatures % packTile = 0 ∧ layer.spec.inFeatures % packTile = 0

end Layer

structure Layer.PackedForm (layer : Layer) (packed : Tensor) : Prop where
  kind : packed.kind = .i32
  shape : packed.shape = packedShape (layer.weight.extent 0) (layer.weight.extent 1)
  device : packed.device = layer.weight.device
  layout : packed.isContiguous = true

/-- The weight of a layer, made ready between two machines. -/
structure ReadyWeight (before : Machine) (layer ready : Layer) (after : Machine) : Prop where
  kept : ¬layer.ToPack → ready.weight = layer.weight ∧ ready.repacked = layer.repacked
  tiled : layer.ToPack → layer.Tiled
  packed : layer.ToPack → ready.repacked = true ∧ layer.PackedForm ready.weight ∧
    after.memory.Has ready.weight.toView
  numbers : layer.ToPack → ∀ rows columns,
    Kernel.Packable before.memory layer.weight.toView rows columns →
      ∀ row < rows.toNat, ∀ column < columns.toNat,
        Kernel.packedNumber after.memory ready.weight.toView rows row column =
          before.memory.number layer.weight.toView .f8 [row, column]

theorem ReadyWeight.since {before middle after : Machine} {layer ready : Layer}
    (followed : before.Follows [] middle) (there : ReadyWeight middle layer ready after) :
    ReadyWeight before layer ready after where
  kept := there.kept
  tiled := there.tiled
  packed := there.packed
  numbers pending rows columns packable row inRows column inColumns := by
    rw [there.numbers pending rows columns (packable.later followed.memory) row inRows column
      inColumns, followed.memory.number packable.has List.not_mem_nil]

private theorem ends_readyWeight (layer : Layer) (machine : Machine) :
    (readyWeight layer).Ends machine
      (fun made after => machine.Follows [] after ∧
        ReadyWeight machine layer { layer with weight := made.1, repacked := made.2 } after)
      (fun _ after => machine.Follows [] after ∧ (machine.Serves layer.weight.device →
        layer.ToPack ∧ (layer.Tiled →
          ∀ rows columns, ¬Kernel.Packable machine.memory layer.weight.toView rows columns))) := by
  simp only [readyWeight, ends_ite, ends_bind, ends_require, ends_pure]
  have asked : (layer.variant = .packed ∧ (!layer.repacked) = true) ↔ layer.ToPack := by
    simp [Layer.ToPack]
  have whole : (layer.spec.outFeatures % packTile == 0 &&
      layer.spec.inFeatures % packTile == 0) = true ↔ layer.Tiled := by simp [Layer.Tiled]
  rw [asked]
  refine ⟨fun pending => ⟨fun tiled => ?_, fun ragged => ⟨.refl _ _, fun _ => ⟨pending, fun tiled => ?_⟩⟩⟩,
    fun done => ⟨.refl _ _, fun _ => ⟨rfl, rfl⟩, fun pending => absurd pending done,
      fun pending => absurd pending done, fun pending => absurd pending done⟩⟩
  · refine (ends_repacked layer.weight machine).mono (fun packed after made => ?_)
      fun _ after failed => ⟨failed.1, fun serves => ⟨pending, fun _ => failed.2 serves⟩⟩
    obtain ⟨middle, made⟩ := made
    have fresh := made.fresh
    exact ⟨fresh.follows, fun done => absurd pending done, fun _ => whole.mp tiled,
      fun _ => ⟨rfl, ⟨fresh.kind_eq, fresh.shape_eq, fresh.device_eq, fresh.isContiguous⟩,
        fresh.has⟩, fun _ _ _ packable => made.numbers packable⟩
  · cases (whole.mpr tiled).symm.trans ragged

/-- A layer made ready between two machines. -/
structure Readied (before : Machine) (layer ready : Layer) (after : Machine) : Prop where
  spec : ready.spec = layer.spec
  device : ready.device = layer.device
  bias : ready.bias = layer.bias
  materialized : ready.materialized = true
  placeholders : ready.placeholders = layer.placeholders + layer.madeUp.length
  slots : ReadySlots before layer layer.required layer.scales ready.scales after
  weight : ReadyWeight before layer ready after

theorem ends_materialized (layer : Layer) (machine : Machine) :
    (materialized layer).Ends machine
      (fun made after => machine.Follows [] after ∧ Readied machine layer made.1 after ∧
        made.2 = layer.madeUp)
      (fun fault after => machine.Follows [] after ∧ (machine.ServesLayer layer →
        (∀ role ∈ layer.required, layer.Suits role) → layer.Overruns fault ∨ layer.ToPack ∧
          (layer.Tiled →
            ∀ rows columns, ¬Kernel.Packable machine.memory layer.weight.toView rows columns))) := by
  simp only [materialized, ends_bind, ends_pure]
  refine (ends_readyScales layer layer.required (fun _ member => member) layer.nodup_required
    layer.scales machine).mono (fun made middle scales => ?_) fun _ after failed => ?_
  · obtain ⟨followed, slots, reports⟩ := scales
    refine (ends_readyWeight layer middle).mono (fun weight after ready => ?_)
      fun _ after failed => ?_
    -- The scales only add storages, so the weight is still the one from before them.
    · obtain ⟨later, weight_ready⟩ := ready
      have count : made.2.length = layer.madeUp.length := by rw [reports, Layer.madeUp]
      refine ⟨followed.trans later, ⟨rfl, rfl, rfl, rfl, by rw [← count], slots.later later, ?_⟩,
        reports⟩
      have since := weight_ready.since followed
      exact ⟨since.kept, since.tiled, since.packed, since.numbers⟩
    · refine ⟨followed.trans failed.1, fun serves _ => ?_⟩
      obtain ⟨pending, unfit⟩ := failed.2 (serves.weight.later followed)
      exact .inr ⟨pending, fun tiled rows columns packable =>
        unfit tiled rows columns (packable.later followed.memory)⟩
  · exact ⟨failed.1, fun serves suits => .inl (failed.2 serves suits)⟩

namespace Observer

/-- Whether reports reach an observer at all. -/
def listens : Observer → Bool
  | .silent => false
  | _ => true

/-- Whether an observer that took the reports `seen` takes one more without failing. -/
def takes : Observer → (seen : List Placeholder) → Placeholder → Bool
  | .refusing refuses, seen, report => !refuses seen report
  | _, _, _ => true

/-- Whether an observer takes reports one after the other without failing. -/
def Accepts (observer : Observer) : (seen reports : List Placeholder) → Prop
  | _, [] => True
  | seen, report :: rest => observer.takes seen report = true ∧ observer.Accepts (seen ++ [report]) rest

/-- What reaches an observer of some reports: all of them where it listens and takes them. -/
def reached (observer : Observer) (reports : List Placeholder) : List Placeholder :=
  if observer.listens then reports else []

/-- An observer that fails on a report after it has taken those before it. -/
structure FailsAfter (observer : Observer) (seen earlier : List Placeholder) (refused : Placeholder) :
    Prop where
  listens : observer.listens = true
  accepts : observer.Accepts seen earlier
  refuses : observer.takes (seen ++ earlier) refused = false

end Observer

/-- A machine whose observer has taken more reports. -/
def Machine.told (machine : Machine) (reports : List Placeholder) : Machine :=
  { machine with reports := machine.reports ++ reports }

private theorem Machine.told_told (machine : Machine) (first second : List Placeholder) :
    (machine.told first).told second = machine.told (first ++ second) := by
  simp only [told, List.append_assoc]

theorem ends_notify (reports : List Placeholder) (machine : Machine) :
    (notify reports).Ends machine
      (fun _ after => after = machine.told (machine.observer.reached reports) ∧
        machine.observer.Accepts machine.reports (machine.observer.reached reports))
      (fun fault after => fault = .layer .observerFailed ∧ ∃ earlier refused later,
        reports = earlier ++ refused :: later ∧ after = machine.told (earlier ++ [refused]) ∧
        machine.observer.FailsAfter machine.reports earlier refused) := by
  induction reports generalizing machine with
  | nil =>
    have none : machine.observer.reached [] = [] := ite_self []
    rw [none]
    exact ⟨by simp [Machine.told], trivial⟩
  | cons report rest ih =>
    -- a listening observer that takes the first report is told of the others
    have next (listening : machine.observer.listens = true)
        (taken : machine.observer.takes machine.reports report = true) :
        (notify rest).Ends (machine.told [report])
          (fun _ after => after = machine.told (machine.observer.reached (report :: rest)) ∧
            machine.observer.Accepts machine.reports (machine.observer.reached (report :: rest)))
          (fun fault after => fault = .layer .observerFailed ∧ ∃ earlier refused later,
            report :: rest = earlier ++ refused :: later ∧
            after = machine.told (earlier ++ [refused]) ∧
            machine.observer.FailsAfter machine.reports earlier refused) := by
      have all (reports : List Placeholder) : machine.observer.reached reports = reports :=
        if_pos listening
      have others : (notify rest).Ends (machine.told [report])
          (fun _ after => after = (machine.told [report]).told (machine.observer.reached rest) ∧
            machine.observer.Accepts (machine.reports ++ [report]) (machine.observer.reached rest))
          (fun fault after => fault = .layer .observerFailed ∧ ∃ earlier refused later,
            rest = earlier ++ refused :: later ∧
            after = (machine.told [report]).told (earlier ++ [refused]) ∧
            machine.observer.FailsAfter (machine.reports ++ [report]) earlier refused) :=
        ih (machine.told [report])
      simp only [all, Machine.told_told] at others ⊢
      refine others.mono (fun _ after ended => ⟨ended.1, taken, ended.2⟩) fun fault after ended => ?_
      obtain ⟨same, earlier, refused, later, split, left, fails⟩ := ended
      refine ⟨same, report :: earlier, refused, later, by rw [split]; rfl, left, listening,
        ⟨taken, fails.accepts⟩, ?_⟩
      have refuses := fails.refuses
      rwa [List.append_assoc] at refuses
    simp only [notify, ends_bind, ends_get]
    cases found : machine.observer with
    | silent => simp [Observer.reached, Observer.listens, Observer.Accepts, Machine.told]
    | collecting =>
      rw [found] at next
      exact next rfl rfl
    | refusing refuses =>
      rw [found] at next
      simp only [ends_bind, ends_modify, ends_ite, ends_throw]
      constructor
      · intro refused
        refine ⟨trivial, [], report, rest, rfl, rfl, rfl, trivial, ?_⟩
        simpa [Observer.takes] using refused
      · intro taken
        exact next rfl (by simpa [Observer.takes] using taken)

/-- A machine in which a layer was replaced by its materialized form, with `made` scales made up. -/
def Machine.commit (machine : Machine) (id : LayerId) (ready : Layer) (made : Nat) : Machine :=
  { machine with
    layers := machine.layers.setIfInBounds id ready
    placeholders := machine.placeholders + made }

/-- A layer changed between two machines, and `called` of the reports on it reached the observer. -/
def Committed (before : Machine) (id : LayerId) (layer ready : Layer) (called : List Placeholder)
    (after : Machine) : Prop :=
  ∃ prepared, before.Follows [] prepared ∧ Readied before layer ready prepared ∧
    after = (prepared.commit id ready layer.madeUp.length).told called

/-- Materializing an open layer: the machine is as it was before, or the layer changed. -/
theorem ends_ensureMaterialized {machine : Machine} {id : LayerId} {layer : Layer}
    (there : machine.layers[id]? = some layer) (unready : layer.materialized = false) :
    (ensureMaterialized id).Ends machine
      (fun _ after => ∃ ready,
        Committed machine id layer ready (machine.observer.reached layer.madeUp) after ∧
        machine.observer.Accepts machine.reports (machine.observer.reached layer.madeUp))
      (fun fault after => (machine.Follows [] after ∧ (machine.ServesLayer layer →
          (∀ role ∈ layer.required, layer.Suits role) → layer.Overruns fault ∨ layer.ToPack ∧
            (layer.Tiled → ∀ rows columns,
              ¬Kernel.Packable machine.memory layer.weight.toView rows columns))) ∨
        fault = .layer .observerFailed ∧ ∃ ready earlier refused later,
          layer.madeUp = earlier ++ refused :: later ∧
          Committed machine id layer ready (earlier ++ [refused]) after ∧
          machine.observer.FailsAfter machine.reports earlier refused) := by
  simp only [ensureMaterialized, findLayer, ends_bind, ends_get, there, ends_pure, unready,
    Bool.false_eq_true, if_false, setLayer, ends_modify]
  refine (ends_materialized layer machine).mono (fun made prepared readied => ?_)
    fun _ after failed => .inl failed
  obtain ⟨followed, readied, reports⟩ := readied
  rw [reports]
  -- The layer is replaced before the observer is asked, so its failure comes too late to undo it.
  have observer : (prepared.commit id made.1 layer.madeUp.length).observer = machine.observer :=
    followed.observer
  have seen : (prepared.commit id made.1 layer.madeUp.length).reports = machine.reports :=
    followed.reports
  have told := ends_notify layer.madeUp (prepared.commit id made.1 layer.madeUp.length)
  rw [observer, seen] at told
  refine told.mono (fun _ after ended => ?_) fun fault after ended => ?_
  · exact ⟨made.1, ⟨prepared, followed, readied, ended.1⟩, ended.2⟩
  · obtain ⟨same, earlier, refused, later, split, left, fails⟩ := ended
    exact .inr ⟨same, made.1, earlier, refused, later, split, ⟨prepared, followed, readied, left⟩,
      fails⟩

/-- What a layer became when it was materialized between two machines, and what of the reports on it
reached the observer. -/
structure Commit (before : Machine) (id : LayerId) (layer ready : Layer) (called : List Placeholder)
    (after : Machine) : Prop where
  layers : after.layers = before.layers.setIfInBounds id ready
  materialized : ready.materialized = true
  fixed : ready.spec = layer.spec ∧ ready.device = layer.device ∧ ready.bias = layer.bias
  weight : ¬layer.ToPack → ready.weight = layer.weight ∧ ready.repacked = layer.repacked
  packed : layer.ToPack → ready.repacked = true ∧ layer.PackedForm ready.weight
  /-- Slots of scales that the variant does not require are left alone. -/
  others : ∀ role, role ∉ layer.required → ready.scales.get role = layer.scales.get role
  /-- A required scale that no one loaded is made of ones. -/
  missing : ∀ role ∈ layer.required, layer.lacks role = true → ∃ ones,
    ready.scales.get role = .held ones ∧ ones.shape = layer.scaleShape role ∧
    ones.kind = layer.spec.paramsKind ∧ ones.device = layer.weight.device ∧
    after.memory.AllOnes ones
  /-- A required scale that was loaded shows what it showed before, as far as its bytes exist and can
  be counted, and it is the very tensor where that was ready. -/
  loaded : ∀ role ∈ layer.required, ∀ loaded, (layer.scales.get role).tensor? = some loaded →
    ∃ scale, ready.scales.get role = .held scale ∧ scale.kind = loaded.kind ∧
      scale.shape = loaded.shape ∧ scale.device = layer.weight.device ∧
      (before.memory.Has loaded.toView → loaded.Fits →
        after.memory.elements scale.toView = before.memory.elements loaded.toView) ∧
      (loaded.device = layer.weight.device → loaded.isContiguous = true → scale = loaded)
  layerCount : ready.placeholders = layer.placeholders + layer.madeUp.length
  count : after.placeholders = before.placeholders + layer.madeUp.length
  reports : after.reports = before.reports ++ called
  memory : before.memory.Evolves [] after.memory

theorem Committed.commit {before after : Machine} {id : LayerId} {layer ready : Layer}
    {called : List Placeholder} (committed : Committed before id layer ready called after) :
    Commit before id layer ready called after := by
  obtain ⟨prepared, followed, readied, rfl⟩ := committed
  refine
    { layers := congrArg (·.setIfInBounds id ready) followed.layers
      materialized := readied.materialized
      fixed := ⟨readied.spec, readied.device, readied.bias⟩
      weight := readied.weight.kept
      packed := fun pending => ⟨(readied.weight.packed pending).1, (readied.weight.packed pending).2.1⟩
      others := readied.slots.others
      missing := ?_
      loaded := ?_
      layerCount := readied.placeholders
      count := congrArg (· + layer.madeUp.length) followed.placeholders
      reports := congrArg (· ++ called) followed.reports
      memory := followed.memory }
  · intro role member lacking
    obtain ⟨scale, held, made⟩ := readied.slots.held role member
    obtain ⟨kind, -, ones⟩ := made.ones lacking
    exact ⟨scale, held, made.shape, kind, made.device, ones⟩
  · intro role member loaded there
    obtain ⟨scale, held, made⟩ := readied.slots.held role member
    obtain ⟨copied, same⟩ := made.copy loaded there
    exact ⟨scale, held, copied.kind, copied.shape, made.device, copied.elements, same⟩

/-- A layer of one output that no one loaded a scale into. -/
def Layer.unloaded : Layer where
  spec := { inFeatures := 2, outFeatures := 1 }
  device := .host
  weight := {
    kind := .float .f8, shape := [1, 2], strides := [2, 1], storage := 0, offset := 0,
    device := .host, handle := 0 }
  bias := none
  scales := {}
  repacked := false
  materialized := false
  placeholders := 0

/-- A machine that collects reports, with that layer alone. -/
def Machine.unloaded : Machine :=
  { Machine.initial with
    memory := Memory.empty.allocate #[0x38, 0x40]
    handles := 1
    observer := .collecting
    layers := #[.unloaded] }

end QuantLinear
