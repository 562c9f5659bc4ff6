import QuantLinear.Proofs.Copies

/-!
Calls that write to tensors that are there.

A copy into a tensor and the in-place operations write to their targets, and they can fail in many
ways: over their operands, for want of a runtime or a kernel, and in the loops of a kernel. What
they write is written last: the checks come first, staging goes through new storages, and a kernel
that fails has stored nothing. So a call that fails leaves every storage as it was
(`failed_call_writes_nothing`), whatever its operands are and however they share storages.
-/

namespace QuantLinear

open QuantLinear.Action

/-- An action that writes to the storages `written` and to new ones, and that writes to new ones
alone where it fails. -/
def Action.Writes {α : Type} (action : Action α) (written : List Nat) (machine : Machine) : Prop :=
  action.Ends machine (fun _ after => machine.Follows written after)
    fun _ after => machine.Follows [] after

/-- The storage behind a handle, where there is one. -/
def Handle.storages (handle : Handle) : List Nat := handle.toList.map (·.storage)

section Laws

variable {α β : Type} {written : List Nat} {machine : Machine}

/-- A check writes nothing. -/
private theorem writes_check {check : Except Fault α} {next : α → Action β}
    (passed : ∀ value, check = .ok value → (next value).Writes written machine) :
    (liftM check >>= next : Action β).Writes written machine := by
  rw [Writes, ends_bind, ends_lift]
  exact ⟨passed, fun _ _ => .refl _ _⟩

/-- An operand that must be defined is there for the rest. -/
private theorem writes_defined {handle : Handle} {next : Tensor → Action β}
    (passed : ∀ tensor, handle = some tensor → (next tensor).Writes written machine) :
    (liftM handle.defined >>= next : Action β).Writes written machine := by
  apply writes_check
  intro tensor found
  cases handle with
  | none => cases found
  | some present =>
    cases found
    exact passed _ rfl

/-- Work that leaves the storages that are there alone may come first. -/
private theorem writes_after {action : Action α} {next : α → Action β}
    (first : action.Ends machine
      (fun answer after => machine.Follows [] after ∧ (next answer).Writes written after)
      fun _ after => machine.Follows [] after) :
    (action >>= next).Writes written machine := by
  rw [Writes, ends_bind]
  apply first.mono
  · intro answer middle started
    apply started.2.mono
    · intro _ after ended
      exact started.1.trans ended
    · intro _ after failed
      exact started.1.trans failed
  · intro _ _ failed
    exact failed

private theorem writes_launch {kernel : Kernel} {device : Device} {work : Work Unit}
    {outcome : Except Fault Memory} (settles : work.Settles machine.memory outcome)
    (writes : ∀ mem, outcome = .ok mem → machine.memory.Evolves written mem) :
    (launch kernel device.type work).Writes written machine :=
  (ends_launch written kernel device machine settles writes).mono (fun _ _ ended => ended.1)
    fun _ _ failed => failed.1

end Laws

section Operations

variable (machine : Machine)

private theorem writes_rearrangeInto (target source : Handle) :
    (rearrangeInto target source).Writes target.storages machine := by
  rw [rearrangeInto]
  refine writes_check fun _ _ => writes_defined ?_
  rintro y rfl
  refine writes_defined fun x _ => writes_check fun _ _ => ?_
  apply writes_launch (Work.settles_rearrange ..)
  intro mem ran
  cases ran
  exact Kernel.evolves_runRearrange ..

private theorem writes_addInto (target left right : Handle) :
    (addInto target left right).Writes target.storages machine := by
  rw [addInto]
  refine writes_check fun _ _ => writes_defined ?_
  rintro c rfl
  refine writes_defined fun a _ => writes_defined fun b _ => writes_check fun _ _ => ?_
  exact writes_launch (Work.settles_add ..) fun _ ran => Kernel.evolves_runAdd ran

private theorem writes_staticQuantizeInto (target x scale : Handle) :
    (staticQuantizeInto target x scale).Writes target.storages machine := by
  rw [staticQuantizeInto]
  refine writes_check fun _ _ => writes_defined ?_
  rintro q rfl
  refine writes_defined fun x _ => writes_defined fun s _ => writes_check fun _ _ => ?_
  exact writes_launch (Work.settles_staticQuantize ..)
    fun _ ran => Kernel.evolves_runStaticQuantize ran

/-- Group quantization writes to its target and to the scales that it measures. -/
private theorem writes_groupQuantizeInto (target scales x : Handle) (size : UInt64) :
    (groupQuantizeInto target scales x size).Writes (target.storages ++ scales.storages)
      machine := by
  rw [groupQuantizeInto]
  refine writes_check fun _ _ => writes_defined ?_
  rintro q rfl
  refine writes_defined ?_
  rintro s rfl
  refine writes_defined fun x _ => writes_check fun _ _ => writes_check fun _ _ => ?_
  exact writes_launch (Work.settles_groupQuantize ..)
    fun _ ran => Kernel.evolves_runGroupQuantize ran

private theorem writes_scaledProductInto (target left leftScale right rightScale : Handle) :
    (scaledProductInto target left leftScale right rightScale).Writes target.storages machine := by
  rw [scaledProductInto]
  refine writes_check fun _ _ => writes_defined ?_
  rintro c rfl
  refine writes_defined fun a _ => writes_defined fun aScale _ => writes_defined fun b _ =>
    writes_defined fun bScale _ => ?_
  exact writes_launch (Work.settles_scaledProduct ..)
    fun _ ran => Kernel.evolves_runScaledProduct ran

private theorem writes_blockScaledProductInto (target left leftScale right rightScale : Handle)
    (blockRows blockColumns : UInt64) :
    (blockScaledProductInto target left leftScale right rightScale blockRows blockColumns).Writes
      target.storages machine := by
  rw [blockScaledProductInto]
  refine writes_check fun _ _ => writes_check fun _ _ => writes_defined ?_
  rintro c rfl
  refine writes_defined fun a _ => writes_defined fun aScale _ => writes_defined fun b _ =>
    writes_defined fun bScale _ => ?_
  exact writes_launch (Work.settles_blockScaledProduct ..)
    fun _ ran => Kernel.evolves_runBlockScaledProduct ran

private theorem writes_repackInto (target weight : Handle) :
    (repackInto target weight).Writes target.storages machine := by
  rw [repackInto]
  refine writes_check fun _ _ => writes_defined ?_
  rintro packed rfl
  refine writes_defined fun w _ => ?_
  exact writes_launch (Work.settles_repack ..) fun _ ran => Kernel.evolves_runRepack ran

private theorem writes_packedProductInto (target left packed scale : Handle)
    (outFeatures inFeatures : UInt64) :
    (packedProductInto target left packed scale outFeatures inFeatures).Writes target.storages
      machine := by
  rw [packedProductInto]
  refine writes_check fun _ _ => writes_defined ?_
  rintro c rfl
  refine writes_defined fun a _ => writes_defined fun b _ => writes_defined fun s _ => ?_
  exact writes_launch (Work.settles_packedProduct ..)
    fun _ ran => Kernel.evolves_runPackedProduct ran

end Operations

section Copies

variable (machine : Machine)

private theorem writes_copyDense (target source : View) :
    (copyDense target source).Writes [target.storage] machine :=
  ⟨rfl, rfl, rfl, rfl, rfl, rfl, Memory.evolves_copyBytes ..⟩

/-- A runtime that is missing is missed before anything is copied. -/
private theorem writes_requireRuntime {written : List Nat} {device : Device}
    {next : Runtime → Action Unit}
    (copies : ∀ runtime, (next runtime).Writes written machine) :
    (requireRuntime device >>= next).Writes written machine := by
  apply writes_after
  apply (ends_requireRuntime device machine).mono
  · intro runtime after there
    rw [there]
    exact ⟨.refl _ _, copies runtime⟩
  · intro _ _ failed
    exact failed.1

/-- A new tensor may be filled first and then read. -/
private theorem writes_staged {written : List Nat} {fill next : Tensor → Action Unit}
    (fills : ∀ staged machine, (fill staged).Writes [staged.storage] machine)
    (reads : ∀ staged machine, (next staged).Writes written machine) (shape : Shape)
    (kind : ElementKind) (device : Device) :
    Action.Writes (do
      let staged ← allocateTensor shape kind device
      fill staged
      next staged) written machine := by
  rw [Writes, ends_bind]
  apply (ends_allocateTensor shape kind device machine).mono
  · intro staged middle fresh
    rw [ends_bind]
    apply (fills staged middle).mono
    · intro _ filled wrote
      -- what was filled is the new storage, so nothing that was there has changed yet
      have kept := (fresh.write wrote).follows
      apply (reads staged filled).mono
      · intro _ after ended
        exact kept.trans ended
      · intro _ after failed
        exact kept.trans failed
    · intro _ _ failed
      exact fresh.follows.trans failed
  · intro _ _ failed
    exact failed.1

private theorem writes_downloadDense (target source : View) :
    (downloadDense target source).Writes [target.storage] machine := by
  apply writes_requireRuntime
  intro _
  exact writes_copyDense machine target source

private theorem writes_uploadDense (target source : View) :
    (uploadDense target source).Writes [target.storage] machine := by
  apply writes_requireRuntime
  intro runtime
  apply writes_after
  apply (ends_countUpload runtime machine).mono
  · intro _ counted kept
    exact ⟨kept.1, writes_copyDense counted target source⟩
  · intro _ _ none
    exact none.elim

/-- A target with gaps is filled from a dense tensor that is filled before. -/
private theorem writes_copyAcross {transfer : View → View → Action Unit}
    (transfers : ∀ target source machine, (transfer target source).Writes [target.storage] machine)
    (target source : Tensor) :
    (copyAcross transfer target source).Writes [target.storage] machine := by
  rw [copyAcross]
  split
  · exact transfers _ _ machine
  · apply writes_staged
    · intro dense middle
      exact transfers dense.toView source.toView middle
    · intro dense filled
      exact writes_rearrangeInto filled (some target) (some dense)

private theorem writes_copyWithin (target source : Tensor) :
    (copyWithin target source).Writes [target.storage] machine := by
  rw [copyWithin]
  split
  · apply writes_requireRuntime
    intro _
    exact writes_copyDense machine target.toView source.toView
  · exact writes_rearrangeInto machine (some target) (some source)

private theorem writes_copyBetween (target source : Tensor) :
    (copyBetween target source).Writes [target.storage] machine := by
  have downloads (y x : View) (machine : Machine) := writes_downloadDense machine y x
  have uploads (y x : View) (machine : Machine) := writes_uploadDense machine y x
  rw [copyBetween]
  split
  · exact writes_copyAcross machine downloads target source
  · split
    · exact writes_copyAcross machine uploads target source
    · -- the stop on the host is a new tensor
      apply writes_staged
      · intro onHost middle
        exact writes_copyAcross middle downloads onHost source
      · intro onHost filled
        exact writes_copyAcross filled uploads target onHost

private theorem writes_copyInto (target source : Handle) :
    (copyInto target source).Writes target.storages machine := by
  rw [copyInto]
  apply writes_defined
  rintro y rfl
  apply writes_defined
  intro x _
  -- neither an ill-fitting shape nor an ill-fitting kind is found out too late
  apply writes_check
  intro _ _
  apply writes_check
  intro _ _
  split
  · exact writes_copyWithin machine y x
  · apply writes_after
    apply (ends_contiguousTensor x machine).mono
    · intro dense middle copied
      exact ⟨copied.1.follows, writes_copyBetween middle y dense⟩
    · intro _ _ failed
      exact failed.1

end Copies

/-- The calls that write to tensors that are there. -/
inductive InPlaceCall where
  | copy (target source : Handle)
  | rearrange (target source : Handle)
  | add (target left right : Handle)
  | staticQuantize (target x scale : Handle)
  | groupQuantize (target scales x : Handle) (size : UInt64)
  | scaledProduct (target left leftScale right rightScale : Handle)
  | blockScaledProduct (target left leftScale right rightScale : Handle)
      (blockRows blockColumns : UInt64)
  | repack (target weight : Handle)
  | packedProduct (target left packed scale : Handle) (outFeatures inFeatures : UInt64)

namespace InPlaceCall

def run : InPlaceCall → Action Unit
  | copy target source => copyInto target source
  | rearrange target source => rearrangeInto target source
  | add target left right => addInto target left right
  | staticQuantize target x scale => staticQuantizeInto target x scale
  | groupQuantize target scales x size => groupQuantizeInto target scales x size
  | scaledProduct target left leftScale right rightScale =>
    scaledProductInto target left leftScale right rightScale
  | blockScaledProduct target left leftScale right rightScale blockRows blockColumns =>
    blockScaledProductInto target left leftScale right rightScale blockRows blockColumns
  | repack target weight => repackInto target weight
  | packedProduct target left packed scale outFeatures inFeatures =>
    packedProductInto target left packed scale outFeatures inFeatures

/-- The operands that a call fills. -/
def targets : InPlaceCall → List Handle
  | groupQuantize target scales _ _ => [target, scales]
  | copy target _ | rearrange target _ | add target _ _ | staticQuantize target _ _
  | scaledProduct target _ _ _ _ | blockScaledProduct target _ _ _ _ _ _ | repack target _
  | packedProduct target _ _ _ _ _ => [target]

/-- The storages that a call may write to. -/
def written (call : InPlaceCall) : List Nat := call.targets.flatMap Handle.storages

private theorem writes_run (call : InPlaceCall) (machine : Machine) :
    call.run.Writes call.written machine := by
  cases call with
  | copy target source => simpa [run, written, targets] using writes_copyInto machine target source
  | rearrange target source => simpa [run, written, targets] using writes_rearrangeInto machine target source
  | add target left right => simpa [run, written, targets] using writes_addInto machine target left right
  | staticQuantize target x scale =>
    simpa [run, written, targets] using writes_staticQuantizeInto machine target x scale
  | groupQuantize target scales x size =>
    simpa [run, written, targets] using writes_groupQuantizeInto machine target scales x size
  | scaledProduct target left leftScale right rightScale =>
    simpa [run, written, targets] using
      writes_scaledProductInto machine target left leftScale right rightScale
  | blockScaledProduct target left leftScale right rightScale blockRows blockColumns =>
    simpa [run, written, targets] using writes_blockScaledProductInto machine target left leftScale right
      rightScale blockRows blockColumns
  | repack target weight => simpa [run, written, targets] using writes_repackInto machine target weight
  | packedProduct target left packed scale outFeatures inFeatures =>
    simpa [run, written, targets] using
      writes_packedProductInto machine target left packed scale outFeatures inFeatures

end InPlaceCall

/-- A call that fails leaves the bytes of every storage as they were, and one that returns leaves
those of every storage but its targets'. -/
theorem failed_call_writes_nothing (call : InPlaceCall) (machine : Machine) :
    (∀ fault after, call.run machine = .error fault after →
      ∀ storage < machine.memory.next,
        after.memory.contents storage = machine.memory.contents storage) ∧
    ∀ after, call.run machine = .ok () after →
      ∀ storage < machine.memory.next, storage ∉ call.written →
        after.memory.contents storage = machine.memory.contents storage := by
  have ended := call.writes_run machine
  constructor
  · intro fault after failed storage there
    exact (ended.failure failed).memory.contents storage there List.not_mem_nil
  · intro after returned storage there apart
    exact (ended.answer returned).memory.contents storage there apart

/-- A host with three storages of four bytes. -/
def withThreeWords : Machine :=
  { Machine.initial with memory := ⟨#[#[0, 0, 128, 63], #[0, 0, 0, 0], #[0, 0, 0, 0]]⟩ }

/-- One number alone in a storage. -/
def lone (kind : ElementKind) (storage : Nat) : Tensor :=
  { View.dense kind [1, 1] storage .host with handle := storage }

/-- Quantizes one number and measures its scale in an element of the given kind. -/
def quantizeLone (scaleKind : ElementKind) : InPlaceCall :=
  .groupQuantize (some (lone (.float .f8) 1)) (some (lone scaleKind 2)) (some (lone (.float .f32) 0)) 1

/-- Scales in integers are refused in the loop of the kernel, with the number measured. -/
theorem failed_call_writes_nothing_lone :
    (∃ after, (quantizeLone .i32).run withThreeWords = .error (.element (.notEncodable .i32)) after ∧
      ∀ storage < 3, after.memory.contents storage = withThreeWords.memory.contents storage) ∧
    ∃ after, (quantizeLone (.float .f32)).run withThreeWords = .ok () after ∧
      after.memory.contents 0 = withThreeWords.memory.contents 0 := by
  constructor
  · have fails : (match (quantizeLone .i32).run withThreeWords with
      | .ok _ _ => false
      | .error fault _ => fault = .element (.notEncodable .i32)) = true := by decide +kernel
    split at fails
    · cases fails
    · next fault after failed =>
      obtain rfl := of_decide_eq_true fails
      exact ⟨after, failed, (failed_call_writes_nothing _ withThreeWords).1 _ after failed⟩
  · have returns : (match (quantizeLone (.float .f32)).run withThreeWords with
      | .ok _ _ => true
      | .error _ _ => false) = true := by decide +kernel
    split at returns
    · next after returned =>
      refine ⟨after, returned, (failed_call_writes_nothing _ _).2 after returned 0 ?_ ?_⟩
      · decide
      · decide
    · cases returns

end QuantLinear
