import QuantLinear.Operation
import QuantLinear.Proofs.Fresh
import QuantLinear.Proofs.Kernel.Elementwise
import QuantLinear.Proofs.Kernel.Packed
import QuantLinear.Proofs.Kernel.Settled

/-!
Operations as far as they check their operands and launch a kernel.

An operation that returns has run its kernel, and only the kernel's targets differ. On operands of
one served device that pass the operation's own checks it fails only with the kernel.
-/

namespace QuantLinear

open QuantLinear.Action

/-- Operands on one device are let through. -/
theorem requireSameDevice_ok {first : Tensor} (others : List Tensor)
    (same : ∀ other ∈ others, first.device = other.device) :
    requireSameDevice (some first) (others.map some) = .ok () := by
  induction others with
  | nil => rfl
  | cons other rest ih =>
    have here := same other List.mem_cons_self
    have later := ih fun other member => same other (List.mem_cons_of_mem _ member)
    have passed : require (first.device == other.device)
        (.device (.mismatch first.device other.device)) = .ok () := by
      rw [here, BEq.rfl]
      rfl
    exact (congrArg (· >>= fun _ => requireSameDevice (some first) (rest.map some)) passed).trans
      later

/-- What follows where operands are let through, and where one is on another device. -/
private theorem ends_requireSameDevice {first : Tensor} (others : List Tensor) {machine : Machine}
    {returns : Unit → Machine → Prop} {fails : Fault → Machine → Prop} (passed : returns () machine)
    (refused : (¬∀ other ∈ others, first.device = other.device) → ∀ fault, fails fault machine) :
    Ends (liftM (requireSameDevice (some first) (others.map some))) machine returns fails := by
  rw [ends_lift]
  refine ⟨fun _ _ => passed, fun fault failed => refused (fun same => ?_) fault⟩
  cases (requireSameDevice_ok others same).symm.trans failed

/-- A launch that comes after checks fails with its kernel, whatever was checked. -/
private theorem ends_launch_checked (changed : List Nat) (kernel : Kernel) (device : Device)
    {work : Work Unit}
    {outcome : Except Fault Memory} {passed : Prop} {machine : Machine}
    (settles : work.Settles machine.memory outcome)
    (writes : ∀ mem, outcome = .ok mem → machine.memory.Evolves changed mem) :
    (launch kernel device.type work).Ends machine
      (fun _ after => machine.Follows changed after ∧ outcome = .ok after.memory)
      (fun fault after => machine.Follows [] after ∧
        (machine.Serves device → passed → outcome = .error fault)) :=
  (ends_launch changed kernel device machine settles writes).mono (fun _ _ ended => ended)
    fun _ _ failed => ⟨failed.1, fun serves _ => failed.2 serves⟩

-- The conditions of each operation are those that it checks itself, in one conjunction, so that a
-- caller proves them once for both ends of the call.

theorem ends_staticQuantizeInto (target x scale : Tensor) (machine : Machine) :
    (staticQuantizeInto (some target) (some x) (some scale)).Ends machine
      (fun _ after => machine.Follows [target.storage] after ∧
        Kernel.runStaticQuantize target.toView x.toView scale.toView machine.memory =
          .ok after.memory)
      (fun fault after => machine.Follows [] after ∧
        (machine.Serves x.device → (target.device = x.device ∧ target.device = scale.device ∧
          target.shape = x.shape) →
          Kernel.runStaticQuantize target.toView x.toView scale.toView machine.memory =
            .error fault)) := by
  simp only [staticQuantizeInto, ends_bind, ends_defined, ends_require]
  refine ends_requireSameDevice [x, scale] ⟨fun _ => ?_, fun other => ?_⟩
    fun elsewhere _ => ⟨.refl _ _, fun _ fits =>
      absurd (by simpa using ⟨fits.1, fits.2.1⟩) elsewhere⟩
  · exact ends_launch_checked [target.storage] .staticQuantize x.device
      (Work.settles_staticQuantize ..) fun _ ran => Kernel.evolves_runStaticQuantize ran
  · exact ⟨.refl _ _, fun _ fits => absurd (beq_iff_eq.mpr fits.2.2) (by simpa using other)⟩

theorem ends_groupQuantizeInto (target scales x : Tensor) (size : UInt64) (machine : Machine) :
    (groupQuantizeInto (some target) (some scales) (some x) size).Ends machine
      (fun _ after => machine.Follows [target.storage, scales.storage] after ∧
        Kernel.runGroupQuantize target.toView scales.toView x.toView size machine.memory =
          .ok after.memory)
      (fun fault after => machine.Follows [] after ∧
        (machine.Serves x.device → (target.device = x.device ∧ target.device = scales.device ∧
          x.rank = 2 ∧ target.shape = x.shape ∧ size ≠ 0) →
          Kernel.runGroupQuantize target.toView scales.toView x.toView size machine.memory =
            .error fault)) := by
  simp only [groupQuantizeInto, ends_bind, ends_defined, ends_require]
  refine ends_requireSameDevice [scales, x] ⟨fun _ => ⟨fun _ => ?_, fun none => ?_⟩, fun other => ?_⟩
    fun elsewhere _ => ⟨.refl _ _, fun _ fits =>
      absurd (by simpa using ⟨fits.2.1, fits.1⟩) elsewhere⟩
  · exact ends_launch_checked [target.storage, scales.storage] .groupQuantize x.device
      (Work.settles_groupQuantize ..) fun _ ran => Kernel.evolves_runGroupQuantize ran
  · exact ⟨.refl _ _, fun _ fits => absurd (by simpa using none) fits.2.2.2.2⟩
  · refine ⟨.refl _ _, fun _ fits => ?_⟩
    simp [fits.2.2.1, fits.2.2.2.1] at other

/-- Activations are quantized into a tensor of their own shape. -/
theorem ends_staticQuantizeInto_passed (target x scale : Tensor) (machine : Machine) :
    (staticQuantizeInto (some target) (some x) (some scale)).Ends machine
      (fun _ _ => target.shape = x.shape) (fun _ _ => True) := by
  simp only [staticQuantizeInto, ends_bind, ends_defined, ends_require, beq_iff_eq]
  apply ends_requireSameDevice [x, scale] _ fun _ _ => trivial
  constructor
  · intro same
    exact (ends_somewhere _ machine).mono (fun _ _ _ => same) fun _ _ _ => trivial
  · exact fun _ => trivial

/-- Activations are quantized in groups as matrices, and no group is empty. -/
theorem ends_groupQuantizeInto_passed (target scales x : Tensor) (size : UInt64)
    (machine : Machine) :
    (groupQuantizeInto (some target) (some scales) (some x) size).Ends machine
      (fun _ _ => x.rank = 2 ∧ target.shape = x.shape ∧ size ≠ 0) (fun _ _ => True) := by
  simp only [groupQuantizeInto, ends_bind, ends_defined, ends_require, Bool.and_eq_true, beq_iff_eq,
    bne_iff_ne]
  apply ends_requireSameDevice [scales, x] _ fun _ _ => trivial
  refine ⟨fun same => ⟨fun some => ?_, fun _ => trivial⟩, fun _ => trivial⟩
  exact (ends_somewhere _ machine).mono (fun _ _ _ => ⟨same.1, same.2, some⟩) fun _ _ _ => trivial

theorem ends_scaledProductInto (target left leftScale right rightScale : Tensor)
    (machine : Machine) :
    (scaledProductInto (some target) (some left) (some leftScale) (some right)
        (some rightScale)).Ends machine
      (fun _ after => machine.Follows [target.storage] after ∧
        Kernel.runScaledProduct target.toView left.toView leftScale.toView right.toView
          rightScale.toView machine.memory = .ok after.memory)
      (fun fault after => machine.Follows [] after ∧ (machine.Serves target.device →
        (∀ operand ∈ [left, leftScale, right, rightScale], target.device = operand.device) →
          Kernel.runScaledProduct target.toView left.toView leftScale.toView right.toView
            rightScale.toView machine.memory = .error fault)) := by
  simp only [scaledProductInto, ends_bind, ends_defined]
  refine ends_requireSameDevice [left, leftScale, right, rightScale] ?_
    fun elsewhere _ => ⟨.refl _ _, fun _ same => absurd same elsewhere⟩
  exact ends_launch_checked [target.storage] .scaledProduct target.device
      (Work.settles_scaledProduct ..) fun _ ran => Kernel.evolves_runScaledProduct ran

theorem ends_blockScaledProductInto (target left leftScale right rightScale : Tensor)
    (blockRows blockColumns : UInt64) (machine : Machine) :
    (blockScaledProductInto (some target) (some left) (some leftScale) (some right)
        (some rightScale) blockRows blockColumns).Ends machine
      (fun _ after => machine.Follows [target.storage] after ∧
        Kernel.runBlockScaledProduct target.toView left.toView leftScale.toView right.toView
          rightScale.toView blockRows blockColumns machine.memory = .ok after.memory)
      (fun fault after => machine.Follows [] after ∧ (machine.Serves target.device →
        ((∀ operand ∈ [left, leftScale, right, rightScale], target.device = operand.device) ∧
          blockRows ≠ 0 ∧ blockColumns ≠ 0) →
          Kernel.runBlockScaledProduct target.toView left.toView leftScale.toView right.toView
            rightScale.toView blockRows blockColumns machine.memory = .error fault)) := by
  simp only [blockScaledProductInto, ends_bind, ends_defined, ends_require]
  refine ends_requireSameDevice [left, leftScale, right, rightScale] ⟨fun _ => ?_, fun none => ?_⟩
    fun elsewhere _ => ⟨.refl _ _, fun _ fits => absurd fits.1 elsewhere⟩
  · exact ends_launch_checked [target.storage] .blockScaledProduct target.device
      (Work.settles_blockScaledProduct ..) fun _ ran => Kernel.evolves_runBlockScaledProduct ran
  · refine ⟨.refl _ _, fun _ fits => ?_⟩
    simp [fits.2.1, fits.2.2] at none

/-- No block of a product in blocks is empty. -/
theorem ends_blockScaledProductInto_passed (target left leftScale right rightScale : Tensor)
    (blockRows blockColumns : UInt64) (machine : Machine) :
    (blockScaledProductInto (some target) (some left) (some leftScale) (some right)
        (some rightScale) blockRows blockColumns).Ends machine
      (fun _ _ => blockRows ≠ 0 ∧ blockColumns ≠ 0) (fun _ _ => True) := by
  simp only [blockScaledProductInto, ends_bind, ends_defined, ends_require, Bool.and_eq_true,
    bne_iff_ne]
  apply ends_requireSameDevice [left, leftScale, right, rightScale] _ fun _ _ => trivial
  constructor
  · intro some
    exact (ends_somewhere _ machine).mono (fun _ _ _ => some) fun _ _ _ => trivial
  · exact fun _ => trivial

theorem ends_repackInto (target weight : Tensor) (machine : Machine) :
    (repackInto (some target) (some weight)).Ends machine
      (fun _ after => machine.Follows [target.storage] after ∧
        Kernel.runRepack target.toView weight.toView machine.memory = .ok after.memory)
      (fun fault after => machine.Follows [] after ∧ (machine.Serves weight.device →
        target.device = weight.device →
          Kernel.runRepack target.toView weight.toView machine.memory = .error fault)) := by
  simp only [repackInto, ends_bind, ends_defined]
  refine ends_requireSameDevice [weight] ?_
    fun elsewhere _ => ⟨.refl _ _, fun _ same => absurd (by simpa using same) elsewhere⟩
  exact ends_launch_checked [target.storage] .repack weight.device
      (Work.settles_repack ..) fun _ ran => Kernel.evolves_runRepack ran

theorem ends_packedProductInto (target left packed scale : Tensor)
    (outFeatures inFeatures : UInt64) (machine : Machine) :
    (packedProductInto (some target) (some left) (some packed) (some scale) outFeatures
        inFeatures).Ends machine
      (fun _ after => machine.Follows [target.storage] after ∧
        Kernel.runPackedProduct target.toView left.toView packed.toView scale.toView outFeatures
          inFeatures machine.memory = .ok after.memory)
      (fun fault after => machine.Follows [] after ∧ (machine.Serves target.device →
        (∀ operand ∈ [left, packed, scale], target.device = operand.device) →
          Kernel.runPackedProduct target.toView left.toView packed.toView scale.toView outFeatures
            inFeatures machine.memory = .error fault)) := by
  simp only [packedProductInto, ends_bind, ends_defined]
  refine ends_requireSameDevice [left, packed, scale] ?_
    fun elsewhere _ => ⟨.refl _ _, fun _ same => absurd same elsewhere⟩
  exact ends_launch_checked [target.storage] .packedProduct target.device
      (Work.settles_packedProduct ..) fun _ ran => Kernel.evolves_runPackedProduct ran

/-- Adding to a tensor in place. -/
theorem ends_addInto (target right : Tensor) (machine : Machine) :
    (addInto (some target) (some target) (some right)).Ends machine
      (fun _ after => machine.Follows [target.storage] after ∧
        Kernel.runAdd target.toView target.toView right.toView machine.memory = .ok after.memory)
      (fun fault after => machine.Follows [] after ∧ (machine.Serves target.device →
        (target.device = right.device ∧ target.shape = right.shape) →
          Kernel.runAdd target.toView target.toView right.toView machine.memory =
            .error fault)) := by
  simp only [addInto, ends_bind, ends_defined, ends_require]
  refine ends_requireSameDevice [target, right] ⟨fun _ => ?_, fun other => ?_⟩
    fun elsewhere _ => ⟨.refl _ _, fun _ fits => absurd (by simpa using fits.1) elsewhere⟩
  · exact ends_launch_checked [target.storage] .add target.device
      (Work.settles_add ..) fun _ ran => Kernel.evolves_runAdd ran
  · refine ⟨.refl _ _, fun _ fits => ?_⟩
    simp [fits.2] at other

/-- An operation whose kernel is known to run does what its kernel does, and fails on devices that
are not served alone. -/
theorem Action.Ends.ofRun {operation : Action Unit} {ran : Except Fault Memory} {changed : List Nat}
    {machine : Machine} {device : Device} {fits ready : Prop}
    (ended : operation.Ends machine
      (fun _ after => machine.Follows changed after ∧ ran = .ok after.memory)
      (fun fault after => machine.Follows [] after ∧
        (machine.Serves device → fits → ran = .error fault)))
    (written : Memory → Prop) (runs : ready → fits ∧ ∃ mem, ran = .ok mem ∧ written mem) :
    operation.Ends machine
      (fun _ after => machine.Follows changed after ∧ (ready → written after.memory))
      (fun _ after => machine.Follows [] after ∧ (ready → ¬machine.Serves device)) := by
  refine ended.mono (fun _ after done => ⟨done.1, fun able => ?_⟩)
    fun _ after failed => ⟨failed.1, fun able serves => ?_⟩
  · obtain ⟨-, mem, same, holds⟩ := runs able
    cases same.symm.trans done.2
    exact holds
  · obtain ⟨passed, mem, same, -⟩ := runs able
    cases same.symm.trans (failed.2 serves passed)

/-- A host with the given storages. -/
def Machine.holding (storages : Array (Array UInt8)) : Machine :=
  { Machine.initial with memory := ⟨storages⟩, handles := storages.size }

/-- A tensor that covers a storage of the host. -/
def Tensor.covering (storage : Nat) (kind : ElementKind) (shape : Shape) : Tensor :=
  { View.dense kind shape storage .host with handle := storage }

theorem Memory.dense_covering {mem : Memory} {storage : Nat} {kind : ElementKind} {shape : Shape}
    (fits : shape.count * kind.size < 2 ^ 64) (room : shape.count * kind.size ≤ mem.size storage)
    (stored : storage < mem.next) : mem.Dense (Tensor.covering storage kind shape).toView :=
  ⟨rfl, rfl, fits, room, stored⟩

end QuantLinear
