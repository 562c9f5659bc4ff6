import QuantLinear.Tensor.Transfer
import QuantLinear.Proofs.Operations

/-!
Copies of tensors.

A copy has the kind and the shape of its source and shows the same words (`Copied`). That holds for
a copy into row-major order, for one onto another device, and for the tensor itself where no copy is
made. A tensor that is there takes the words of another one, and its other bytes stay (`Poured`), on
whichever devices the two lie and through whichever tensors in between. On hosts with their built-in
runtime and kernels no copy fails.
-/

namespace QuantLinear

/-- A view whose elements take fewer than `2 ^ 64` bytes, and whose addresses do not wrap where it
has no gaps. -/
structure View.Fits (v : View) : Prop where
  bytes : v.shape.count * v.kind.size < 2 ^ 64
  range : v.isContiguous = true → ∀ place < v.shape.count,
    v.offset.toNat + place * v.kind.size < 2 ^ 64

namespace Memory

/-- Where the count does not wrap, the elements are the words at all indices. -/
theorem elements_eq_map_load (mem : Memory) (v : View) (fits : v.shape.count < 2 ^ 64) :
    mem.elements v = (Shape.indices v.shape).map (mem.load v) := by
  have whole : v.numel.toNat = v.shape.count := Shape.toNat_numel_of_lt fits
  rw [elements, whole, Shape.indices_eq_positions, Shape.positions_eq_map_indexAt, List.map_map]
  rfl

theorem evolves_copyBytes (mem : Memory) (target targetAddress source sourceAddress count : Nat) :
    Evolves [target] mem (mem.copyBytes target targetAddress source sourceAddress count) :=
  evolves_writeBytes ..

private theorem Dense.viewFits {mem : Memory} {v : View} (dense : mem.Dense v) : v.Fits where
  bytes := dense.fits
  range _ place below := by
    have inside := View.place_bytes_le below
    have fits := dense.fits
    have size := v.kind.size_pos
    rw [dense.offset, UInt64.toNat_zero]
    omega

/-- The address of an element of a view without gaps. -/
private theorem address_of_fits {mem : Memory} {v : View} (there : mem.Has v)
    (packed : v.isContiguous = true) (fits : v.Fits) {index : Index}
    (inside : v.shape.Within index) :
    v.address index = v.offset.toNat + v.shape.placeOf index * v.kind.size := by
  have below := Shape.placeOf_lt inside
  have found := v.address_indexAt there.rank packed below
  rwa [Shape.indexAt_placeOf inside, Nat.mod_eq_of_lt (fits.range packed _ below)] at found

/-- A view to which elements can be copied: they lie in its storage, each in bytes of its own. -/
structure Takes (mem : Memory) (v : View) : Prop where
  has : mem.Has v
  separate : mem.Separate v
  fits : v.Fits

theorem Takes.later {changed : List Nat} {before after : Memory} {v : View} (takes : before.Takes v)
    (evolved : Evolves changed before after) : after.Takes v :=
  ⟨takes.has.later evolved, takes.separate.later evolved, takes.fits⟩

theorem Dense.takes {mem : Memory} {v : View} (dense : mem.Dense v) : mem.Takes v :=
  ⟨dense.has, dense.separate, dense.viewFits⟩

section CopyBytes

variable {mem : Memory} {target source : View} (takes : mem.Takes target)
  (dense : target.isContiguous = true)

include takes dense

/-- Bytes that are copied to a view without gaps reach its elements and nothing else. -/
private theorem rewrites_copyBytes (other address : Nat) : Rewrites [target] mem
    (mem.copyBytes target.storage target.offset.toNat other address target.byteCount.toNat) where
  next := next_writeBytes ..
  size storage := size_writeBytes ..
  bytes storage place uncovered := by
    rw [copyBytes, byte_writeBytes]
    split
    · next here =>
      have size := target.kind.size_pos
      have count : target.byteCount.toNat = target.shape.count * target.kind.size :=
        toNat_byteCount takes.fits.bytes
      -- a byte among those of all elements lies under one of them
      have past : target.byteCount.toNat ≤ place - target.offset.toNat := by
        rw [count]
        by_contra under
        have below : (place - target.offset.toNat) / target.kind.size < target.shape.count :=
          (Nat.div_lt_iff_lt_mul size).mpr (Nat.lt_of_not_le under)
        have split := Nat.div_add_mod (place - target.offset.toNat) target.kind.size
        have rest := Nat.mod_lt (place - target.offset.toNat) size
        have found := address_of_fits takes.has dense takes.fits (Shape.within_indexAt below)
        rw [Shape.placeOf_indexAt below, Nat.mul_comm] at found
        exact uncovered target (List.mem_singleton.mpr rfl)
          ⟨here.1, _, Shape.within_indexAt below, by omega, by omega⟩
      rw [List.getD_eq_getElem?_getD, List.getElem?_eq_none, Option.getD_none]
      rwa [length_readBytes]
    · rfl

/-- Copying the bytes of a view without gaps copies its words. -/
private theorem load_copyBytes (there : mem.Has source) (packed : source.isContiguous = true)
    (fits : source.Fits) (kind : target.kind = source.kind) (shape : target.shape = source.shape)
    {index : Index} (inside : source.shape.Within index) :
    (mem.copyBytes target.storage target.offset.toNat source.storage source.offset.toNat
      target.byteCount.toNat).load target index = mem.load source index := by
  have within : target.shape.Within index := by rwa [shape]
  have below := View.place_bytes_le (Shape.placeOf_lt within)
  have room := takes.separate.room index within
  have count : target.byteCount.toNat = target.shape.count * target.kind.size :=
    toNat_byteCount takes.fits.bytes
  rw [Memory.load, wordAt, Memory.load, wordAt, address_of_fits there packed fits inside,
    address_of_fits takes.has dense takes.fits within, count, kind, shape]
  rw [address_of_fits takes.has dense takes.fits within, kind, shape] at room
  rw [kind, shape] at below
  congr 1
  -- the bytes of one element lie among those that are copied
  refine readBytes_congr fun i small => ?_
  have stored : target.offset.toNat + source.shape.placeOf index * source.kind.size + i <
      mem.size target.storage := by omega
  have copied : source.shape.placeOf index * source.kind.size + i <
      source.shape.count * source.kind.size := by omega
  rw [copyBytes, byte_writeBytes, if_pos ⟨rfl, by omega, stored⟩, Nat.add_assoc,
    Nat.add_sub_cancel_left]
  simp [readBytes, copied, Nat.add_assoc]

end CopyBytes

/-- Two memories between which the elements of a view arrived in another one, while everything else in
the storages that were there stayed. -/
structure Delivers (source target : View) (before after : Memory) : Prop where
  touches : Touches [target] before after
  words : ∀ index, source.shape.Within index → after.load target index = before.load source index

end Memory

open QuantLinear.Action

/-- A tensor that was made or found between two machines and shows the words of another. -/
structure Copied (before : Machine) (source copy : Tensor) (after : Machine) : Prop where
  follows : before.Follows [] after
  kind : copy.kind = source.kind
  shape : copy.shape = source.shape
  has : before.memory.Has source.toView → after.memory.Has copy.toView
  /-- A copy is its source seen as before or covers its storage without gaps. -/
  view : copy.toView = source.toView ∨
    (source.shape.count * source.kind.size < 2 ^ 64 → after.memory.Dense copy.toView)
  /-- A copy lies where its source does or in a new storage. -/
  place : copy.storage = source.storage ∨ before.memory.next ≤ copy.storage
  words : before.memory.Has source.toView → source.Fits → ∀ index, source.shape.Within index →
    after.memory.load copy.toView index = before.memory.load source.toView index

namespace Copied

variable {before middle after : Machine} {source copy last : Tensor}

theorem refl (machine : Machine) (tensor : Tensor) : Copied machine tensor tensor machine :=
  ⟨.refl _ _, rfl, rfl, id, .inl rfl, .inl rfl, fun _ _ _ _ => rfl⟩

theorem fits (copied : Copied before source copy after) (small : source.Fits) : copy.Fits := by
  rcases copied.view with same | dense
  · rw [same]
    exact small
  · exact (dense small.bytes).viewFits

theorem trans (first : Copied before source copy middle) (second : Copied middle copy last after) :
    Copied before source last after where
  follows := first.follows.trans second.follows
  kind := second.kind.trans first.kind
  shape := second.shape.trans first.shape
  has there := second.has (first.has there)
  view := by
    rcases second.view with same | dense
    · rw [same]
      exact first.view.imp_right fun dense small => (dense small).later second.follows.memory
    · refine .inr fun small => dense ?_
      rwa [first.shape, first.kind]
  place := by
    have grown := first.follows.memory.grows
    rcases second.place with same | new
    · rw [same]
      exact first.place
    · exact .inr (Nat.le_trans grown new)
  words there small index inside := by
    rw [second.words (first.has there) (first.fits small) index (by rwa [first.shape]),
      first.words there small index inside]

/-- A copy stays one while nothing is written. -/
theorem later (copied : Copied before source copy middle) (followed : middle.Follows [] after) :
    Copied before source copy after where
  follows := copied.follows.trans followed
  kind := copied.kind
  shape := copied.shape
  has there := (copied.has there).later followed.memory
  view := copied.view.imp_right fun dense small => (dense small).later followed.memory
  place := copied.place
  words there small index inside := by
    rw [followed.memory.load (copied.has there).stored List.not_mem_nil,
      copied.words there small index inside]

/-- Work that writes nothing may come before a copy. -/
theorem since (followed : before.Follows [] middle) (copied : Copied middle source copy after) :
    Copied before source copy after where
  follows := followed.trans copied.follows
  kind := copied.kind
  shape := copied.shape
  has there := copied.has (there.later followed.memory)
  view := copied.view
  place := copied.place.imp_right fun new => Nat.le_trans followed.memory.grows new
  words there small index inside := by
    rw [copied.words (there.later followed.memory) small index inside,
      followed.memory.load there.stored List.not_mem_nil]

/-- A copy shows the same elements. -/
theorem elements (copied : Copied before source copy after) (there : before.memory.Has source.toView)
    (fits : source.Fits) :
    after.memory.elements copy.toView = before.memory.elements source.toView := by
  have count := Shape.count_lt_of_bytes fits.bytes
  rw [Memory.elements_eq_map_load _ _ (by rwa [copied.shape]),
    Memory.elements_eq_map_load _ _ count, copied.shape]
  exact List.map_congr_left fun index member =>
    copied.words there fits index ((Shape.mem_indices _ _).mp member)

end Copied

/-- A tensor to which the elements of another one were copied between two machines. -/
structure Poured (before : Machine) (source target : View) (after : Machine) : Prop where
  follows : before.Follows [target.storage] after
  delivers : before.memory.Takes target → before.memory.Has source → source.Fits →
    source.storage ≠ target.storage → before.memory.Delivers source target after.memory

/-- A new tensor to which the elements of a source were copied is a copy of it. -/
private theorem Copied.of_poured {before middle after : Machine} {source copy : Tensor}
    {device : Device}
    (fresh : Fresh before source.kind source.shape device copy middle)
    (poured : Poured middle source.toView copy.toView after) : Copied before source copy after where
  follows := (fresh.write poured.follows).follows
  kind := fresh.kind_eq
  shape := fresh.shape_eq
  has _ := (fresh.write poured.follows).has
  view := .inr (fresh.write poured.follows).dense
  place := .inr (Nat.le_of_eq fresh.storage.symm)
  words there fits index inside := by
    -- the source is read in the machine with the new tensor, where it is as before
    have delivered := poured.delivers (fresh.dense fits.bytes).takes
      (there.later fresh.follows.memory) fits (fresh.apart there)
    rw [delivered.words index inside, fresh.follows.memory.load there.stored List.not_mem_nil]

/-- Copying from a copy is copying from its source. -/
private theorem Poured.of_copied {before middle after : Machine} {source copy : Tensor} {target : View}
    (copied : Copied before source copy middle) (poured : Poured middle copy.toView target after) :
    Poured before source.toView target after where
  follows := copied.follows.trans poured.follows
  delivers takes there fits apart := by
    -- a copy in a new storage cannot lie where the target has been before
    have elsewhere : copy.storage ≠ target.storage := by
      rcases copied.place with same | new
      · rwa [same]
      · exact (Nat.lt_of_lt_of_le takes.has.stored new).ne'
    have delivered := poured.delivers (takes.later copied.follows.memory) (copied.has there)
      (copied.fits fits) elsewhere
    refine ⟨(copied.follows.memory.touches _).trans delivered.touches, fun index inside => ?_⟩
    rw [delivered.words index (by rwa [copied.shape]), copied.words there fits index inside]

/-- Rearranging within a device fails only for want of a kernel. -/
private theorem ends_rearrangeInto {target source : Tensor} (machine : Machine)
    (device : target.device = source.device) (kind : target.kind = source.kind)
    (shape : target.shape = source.shape) :
    (rearrangeInto (some target) (some source)).Ends machine
      (fun _ after => Poured machine source.toView target.toView after)
      (fun _ after => machine.Follows [] after ∧ ¬machine.Serves source.device) := by
  have same : requireSameDevice (some target) [some source] = .ok () :=
    requireSameDevice_ok [source] (by simpa using device)
  simp only [rearrangeInto, ends_bind, same, ends_ok, ends_defined, ends_require, kind, shape,
    BEq.rfl, Bool.and_self, forall_const, Bool.true_eq_false, IsEmpty.forall_iff, and_true]
  refine (ends_launch [target.storage] .rearrange source.device machine (Work.settles_rearrange ..)
    fun mem ran => ?_).mono (fun _ after ended => ⟨ended.1, fun takes there _ apart => ?_⟩)
    fun fault after ended => ⟨ended.1, fun serves => ?_⟩
  · cases ran
    exact Kernel.evolves_runRearrange ..
  · rw [← Except.ok.inj ended.2]
    exact ⟨(Kernel.rewrites_runRearrange takes.separate there apart kind shape).touches,
      fun _ => Kernel.load_runRearrange takes.separate there apart kind shape⟩
  · cases ended.2 serves

/-- A copy into row-major order. -/
private theorem ends_rearranged (source : Tensor) (machine : Machine) :
    (rearranged (some source)).Ends machine
      (fun copy after => Copied machine source copy after ∧ copy.device = source.device ∧
        copy.isContiguous = true ∧ machine.memory.next ≤ copy.storage)
      (fun _ after => machine.Follows [] after ∧ ¬machine.Serves source.device) := by
  simp only [rearranged, ends_bind, ends_defined]
  refine (ends_allocateTensor source.shape source.kind source.device machine).mono
    (fun copy middle fresh => ?_) fun _ _ failed => failed
  refine (ends_rearrangeInto middle fresh.device_eq fresh.kind_eq fresh.shape_eq).mono
    (fun _ after poured => ?_) fun _ after failed => ?_
  · exact ⟨.of_poured fresh poured, fresh.device_eq, fresh.isContiguous,
      Nat.le_of_eq fresh.storage.symm⟩
  · exact ⟨fresh.follows.trans failed.1, fun serves => failed.2 (serves.later fresh.follows)⟩

/-- The tensor itself where it has no gaps, and else a copy into row-major order. -/
theorem ends_contiguousTensor (source : Tensor) (machine : Machine) :
    (contiguousTensor source).Ends machine
      (fun copy after => Copied machine source copy after ∧ copy.device = source.device ∧
        copy.isContiguous = true ∧ (source.isContiguous = true → copy = source ∧ after = machine) ∧
        (¬source.isContiguous = true → machine.memory.next ≤ copy.storage))
      (fun _ after => machine.Follows [] after ∧ ¬machine.Serves source.device) := by
  simp only [contiguousTensor, ends_ite, ends_pure]
  refine ⟨fun packed => ⟨.refl _ _, trivial, packed, fun _ => ⟨trivial, trivial⟩,
    fun gaps => absurd packed gaps⟩, fun gaps => ?_⟩
  refine (ends_rearranged source machine).mono (fun copy after made => ?_) fun _ _ failed => failed
  obtain ⟨copied, device, packed, new⟩ := made
  exact ⟨copied, device, packed, fun packed => absurd packed gaps, fun _ => new⟩

section Dense

variable {target source : View} (dense : target.isContiguous = true)
  (packed : source.isContiguous = true) (kind : target.kind = source.kind)
  (shape : target.shape = source.shape)

include dense packed kind shape

private theorem ends_copyDense {machine middle : Machine} (followed : machine.Follows [] middle)
    (same : middle.memory = machine.memory) :
    (copyDense target source).Ends middle (fun _ after => Poured machine source target after)
      (fun _ _ => False) := by
  simp only [copyDense, modifyMemory, ends_modify]
  refine ⟨?_, fun takes there fits _ => ?_⟩
  · exact followed.trans ⟨rfl, rfl, rfl, rfl, rfl, rfl, Memory.evolves_copyBytes ..⟩
  · rw [same]
    exact ⟨(Memory.rewrites_copyBytes takes dense _ _).touches,
      fun _ => Memory.load_copyBytes takes dense there packed fits kind shape⟩

private theorem ends_uploadDense (machine : Machine) :
    (uploadDense target source).Ends machine (fun _ after => Poured machine source target after)
      (fun _ after => machine.Follows [] after ∧ ¬machine.Serves target.device) := by
  simp only [uploadDense, ends_bind]
  refine (ends_requireRuntime target.device machine).mono (fun runtime after there => ?_)
    fun _ _ failed => failed
  rw [there]
  refine (ends_countUpload runtime machine).mono (fun _ middle kept => ?_) fun _ _ none => none.elim
  exact (ends_copyDense dense packed kind shape kept.1 kept.2).mono (fun _ _ poured => poured)
    fun _ _ none => none.elim

private theorem ends_downloadDense (machine : Machine) :
    (downloadDense target source).Ends machine (fun _ after => Poured machine source target after)
      (fun _ after => machine.Follows [] after ∧ ¬machine.Serves source.device) := by
  simp only [downloadDense, ends_bind]
  refine (ends_requireRuntime source.device machine).mono (fun runtime after there => ?_)
    fun _ _ failed => failed
  rw [there]
  exact (ends_copyDense dense packed kind shape (.refl _ _) rfl).mono (fun _ _ poured => poured)
    fun _ _ none => none.elim

end Dense

/-- A machine as a copy leaves it that fails: nothing has changed, and one of the devices is no host with
its built-in runtime and kernels. -/
structure Unserved (target source : Device) (before after : Machine) : Prop where
  follows : before.Follows [] after
  unserved : ¬(before.Serves target ∧ before.Serves source)

theorem Unserved.since {target source : Device} {before middle after : Machine}
    (followed : before.Follows [] middle) (failed : Unserved target source middle after) :
    Unserved target source before after :=
  ⟨followed.trans failed.follows,
    fun both => failed.unserved ⟨both.1.later followed, both.2.later followed⟩⟩

section Pairs

variable {target source : Tensor} (kind : target.kind = source.kind)
  (shape : target.shape = source.shape) (machine : Machine)

include kind shape

/-- Where each target without gaps takes the elements of a source, each target does. -/
private theorem ends_copyAcross {transfer : View → View → Action Unit}
    (each : ∀ (dense : View) (middle : Machine), dense.isContiguous = true →
      dense.kind = source.kind → dense.shape = source.shape → dense.device = target.device →
      (transfer dense source.toView).Ends middle
        (fun _ after => Poured middle source.toView dense after)
        (fun _ after => Unserved target.device source.device middle after)) :
    (copyAcross transfer target source).Ends machine
      (fun _ after => Poured machine source.toView target.toView after)
      (fun _ after => Unserved target.device source.device machine after) := by
  simp only [copyAcross, ends_ite, ends_bind]
  refine ⟨fun packed => each target.toView machine packed kind shape rfl, fun _ => ?_⟩
  -- a target with gaps is filled from a tensor without gaps on its own device
  rw [kind, shape]
  refine (ends_allocateTensor source.shape source.kind target.device machine).mono
    (fun staging middle fresh => ?_) fun _ _ failed => ⟨failed.1, fun both => failed.2 both.1⟩
  refine (each staging.toView middle fresh.isContiguous fresh.kind_eq fresh.shape_eq
    fresh.device_eq).mono (fun _ later first => ?_) fun _ _ failed => failed.since fresh.follows
  have copied := Copied.of_poured fresh first
  refine (ends_rearrangeInto later fresh.device_eq.symm (kind.trans copied.kind.symm)
    (shape.trans copied.shape.symm)).mono (fun _ after second => .of_copied copied second)
    fun _ _ failed => ⟨copied.follows.trans failed.1, fun both => failed.2 ?_⟩
  rw [fresh.device_eq]
  exact both.1.later copied.follows

private theorem ends_copyAcross_download (packed : source.isContiguous = true) :
    (copyAcross downloadDense target source).Ends machine
      (fun _ after => Poured machine source.toView target.toView after)
      (fun _ after => Unserved target.device source.device machine after) :=
  ends_copyAcross kind shape machine fun _ middle dense kind shape _ =>
    (ends_downloadDense dense packed kind shape middle).mono (fun _ _ poured => poured)
      fun _ _ failed => ⟨failed.1, fun both => failed.2 both.2⟩

private theorem ends_copyAcross_upload (packed : source.isContiguous = true) :
    (copyAcross uploadDense target source).Ends machine
      (fun _ after => Poured machine source.toView target.toView after)
      (fun _ after => Unserved target.device source.device machine after) :=
  ends_copyAcross kind shape machine fun _ middle dense kind shape device =>
    (ends_uploadDense dense packed kind shape middle).mono (fun _ _ poured => poured)
      fun _ _ failed => ⟨failed.1, fun both => failed.2 (by rw [device]; exact both.1)⟩

/-- Copying a source without gaps to another device. -/
private theorem ends_copyBetween (packed : source.isContiguous = true) :
    (copyBetween target source).Ends machine
      (fun _ after => Poured machine source.toView target.toView after)
      (fun _ after => Unserved target.device source.device machine after) := by
  simp only [copyBetween, ends_ite, ends_bind]
  refine ⟨fun _ => ends_copyAcross_download kind shape machine packed,
    fun away => ⟨fun _ => ends_copyAcross_upload kind shape machine packed, fun _ => ?_⟩⟩
  -- neither device is a host, so the elements pass through one
  have unserved : ¬(machine.Serves target.device ∧ machine.Serves source.device) :=
    fun both => away both.1.host
  refine (ends_allocateTensor source.shape source.kind .host machine).mono
    (fun onHost middle fresh => ?_) fun _ _ failed => ⟨failed.1, unserved⟩
  refine (ends_copyAcross_download fresh.kind_eq fresh.shape_eq middle packed).mono
    (fun _ later down => ?_) fun _ _ failed => ⟨fresh.follows.trans failed.follows, unserved⟩
  have copied := Copied.of_poured fresh down
  exact (ends_copyAcross_upload (kind.trans copied.kind.symm) (shape.trans copied.shape.symm) later
    fresh.isContiguous).mono (fun _ after up => .of_copied copied up)
    fun _ _ failed => ⟨copied.follows.trans failed.follows, unserved⟩

/-- Copying within a device, by bytes where neither tensor has gaps and by elements else. -/
private theorem ends_copyWithin (device : target.device = source.device) :
    (copyWithin target source).Ends machine
      (fun _ after => Poured machine source.toView target.toView after)
      (fun _ after => Unserved target.device source.device machine after) := by
  simp only [copyWithin, ends_ite, ends_bind, Bool.and_eq_true]
  -- bytes are copied by the runtime, elements by the kernel
  refine ⟨fun both => ?_, fun _ => ?_⟩
  · refine (ends_requireRuntime target.device machine).mono (fun _ after there => ?_)
      fun _ _ failed => ⟨failed.1, fun both => failed.2 both.1⟩
    rw [there]
    exact (ends_copyDense both.1 both.2 kind shape (.refl _ _) rfl).mono (fun _ _ poured => poured)
      fun _ _ none => none.elim
  · exact (ends_rearrangeInto machine device kind shape).mono (fun _ _ poured => poured)
      fun _ _ failed => ⟨failed.1, fun both => failed.2 both.2⟩

/-- Tensors of one kind and shape are copied in whatever layout they have and on whichever devices they
lie. -/
theorem ends_copyInto :
    (copyInto (some target) (some source)).Ends machine
      (fun _ after => Poured machine source.toView target.toView after)
      (fun _ after => Unserved target.device source.device machine after) := by
  simp only [copyInto, ends_bind, ends_defined, ends_require, kind, shape, BEq.rfl, forall_const,
    Bool.true_eq_false, IsEmpty.forall_iff, and_true, ends_ite]
  refine ⟨fun device => ends_copyWithin kind shape machine device, fun _ => ?_⟩
  refine (ends_contiguousTensor source machine).mono (fun dense middle made => ?_)
    fun _ _ failed => ⟨failed.1, fun both => failed.2 both.2⟩
  obtain ⟨copied, device, packed, -⟩ := made
  refine (ends_copyBetween (kind.trans copied.kind.symm) (shape.trans copied.shape.symm) middle
    packed).mono (fun _ _ poured => .of_copied copied poured) fun _ _ failed => ?_
  rw [device] at failed
  exact failed.since copied.follows

end Pairs

/-- The tensor itself where it lies on the device, and else a copy there. -/
theorem ends_toDevice (source : Tensor) (device : Device) (machine : Machine) :
    (toDevice source device).Ends machine
      (fun copy after => Copied machine source copy after ∧ copy.device = device ∧
        (source.device = device → copy = source ∧ after = machine))
      (fun _ after => machine.Follows [] after ∧
        ¬(machine.Serves device ∧ machine.Serves source.device)) := by
  simp only [toDevice, ends_bind, ends_ite, ends_pure]
  refine ⟨fun same => ⟨.refl _ _, same.symm, fun _ => ⟨trivial, trivial⟩⟩, fun away => ?_⟩
  refine (ends_allocateTensor source.shape source.kind device machine).mono
    (fun copy middle fresh => ?_) fun _ _ failed => ⟨failed.1, fun both => failed.2 both.1⟩
  -- the new tensor takes the elements of any source that was there before it
  refine (ends_copyInto fresh.kind_eq fresh.shape_eq middle).mono (fun _ after poured => ?_)
    fun _ after failed => ?_
  · exact ⟨.of_poured fresh poured, fresh.device_eq, fun here => absurd here.symm away⟩
  · rw [fresh.device_eq] at failed
    have unserved := failed.since fresh.follows
    exact ⟨unserved.follows, unserved.unserved⟩

end QuantLinear
