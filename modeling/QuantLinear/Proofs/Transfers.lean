import Mathlib.Data.Fintype.Prod
import QuantLinear.Proofs.Copies

/-!
What a copy between two tensors moves, in any layout and between any devices.

Elements of one view begin at addresses that differ by whole elements, so that elements with different
addresses share no byte (`View.address_modEq`), and as many of them as lie in a storage have no more bytes
than it (`Memory.Separate.bytes_le`). A target whose elements are distinct and lie in their storage
therefore takes exactly the elements of its source, and keeps the bytes in between
(`copies_deliver`).
-/

namespace QuantLinear

section Within

variable {shape : Shape} {p : Index → Prop} [DecidablePred p]

instance : Decidable (∀ index, shape.Within index → p index) :=
  decidable_of_iff (∀ index ∈ shape.indices, p index) (by simp only [Shape.mem_indices])

instance : Decidable (∃ index, shape.Within index ∧ p index) :=
  decidable_of_iff (∃ index ∈ shape.indices, p index) (by simp only [Shape.mem_indices])

end Within

namespace View

/-- Whether different elements of a view begin at different bytes. -/
def Distinct (v : View) : Prop :=
  ∀ i, v.shape.Within i → ∀ j, v.shape.Within j → v.address i = v.address j → i = j

instance (v : View) : Decidable v.Distinct :=
  inferInstanceAs (Decidable (∀ i, v.shape.Within i → ∀ j, v.shape.Within j →
    v.address i = v.address j → i = j))

instance (v : View) (storage address : Nat) : Decidable (v.Covers storage address) :=
  inferInstanceAs (Decidable (v.storage = storage ∧ ∃ index, v.shape.Within index ∧
    v.address index ≤ address ∧ address < v.address index + v.kind.size))

/-- All elements of a view begin a whole number of elements from its offset. -/
theorem address_modEq (v : View) (index : Index) :
    v.address index ≡ v.offset.toNat [MOD v.kind.size] := by
  have whole : (v.kind.size : Int) ∣ 2 ^ 64 := by exact_mod_cast v.kind.size_dvd
  rw [← Int.natCast_modEq_iff, address, addressAt_eq,
    Int.toNat_of_nonneg (Int.emod_nonneg _ (by decide))]
  apply ((Int.mod_modEq _ _).of_dvd whole).trans
  simp [Int.ModEq]

end View

namespace Memory

/-- A tensor whose elements lie in its storage, which has fewer than `2 ^ 64` bytes. -/
structure Lodged (mem : Memory) (v : View) : Prop where
  has : mem.Has v
  room : ∀ index, v.shape.Within index → v.address index + v.kind.size ≤ mem.size v.storage
  small : mem.size v.storage < 2 ^ 64

variable {mem : Memory} {v : View}

/-- Elements in bytes of their own have no more bytes than their storage. -/
theorem Separate.bytes_le (separate : mem.Separate v) :
    v.shape.count * v.kind.size ≤ mem.size v.storage := by
  have within (place : Fin v.shape.count) := Shape.within_indexAt place.isLt
  let byteOf (byte : Fin v.shape.count × Fin v.kind.size) : Fin (mem.size v.storage) :=
    ⟨v.address (v.shape.indexAt byte.1) + byte.2, by
      have room := separate.room _ (within byte.1)
      omega⟩
  -- a byte belongs to one element, and there it has one place
  have injective : Function.Injective byteOf := by
    rintro ⟨p, i⟩ ⟨q, j⟩ same
    have address : v.address (v.shape.indexAt p) + i = v.address (v.shape.indexAt q) + j :=
      congrArg Fin.val same
    have place : p = q := by
      by_contra other
      have apart := separate.apart _ _ (within p) (within q) fun equal => other (Fin.ext (by
        rw [← Shape.placeOf_indexAt p.isLt, equal, Shape.placeOf_indexAt q.isLt]))
      omega
    subst place
    exact Prod.ext rfl (Fin.ext (Nat.add_left_cancel address))
  simpa using Fintype.card_le_of_injective byteOf injective

namespace Lodged

variable (lodged : mem.Lodged v)
include lodged

/-- Distinct elements share no byte. -/
theorem separate (distinct : v.Distinct) : mem.Separate v where
  stored := lodged.has.stored
  room := lodged.room
  apart i j first second other := by
    -- addresses that differ do so by a multiple of the size
    have aligned := (v.address_modEq i).trans (v.address_modEq j).symm
    rcases Nat.lt_trichotomy (v.address i) (v.address j) with below | same | above
    · have step := Nat.le_of_dvd (Nat.sub_pos_of_lt below)
        ((Nat.modEq_iff_dvd' below.le).mp aligned)
      omega
    · exact absurd (distinct i first j second same) other
    · have step := Nat.le_of_dvd (Nat.sub_pos_of_lt above)
        ((Nat.modEq_iff_dvd' above.le).mp aligned.symm)
      omega

/-- Without gaps the elements follow each other to the end of the storage at most. -/
theorem place_bytes_le (packed : v.isContiguous = true) {place : Nat} (below : place < v.shape.count) :
    v.offset.toNat + place * v.kind.size + v.kind.size ≤ mem.size v.storage := by
  have small := lodged.small
  -- by induction on the place: what ends in the storage is followed by an address that does not wrap
  induction place with
  | zero =>
    have room := lodged.room _ (Shape.within_indexAt below)
    rw [v.address_indexAt lodged.has.rank packed below] at room
    have start := v.offset.toNat_lt
    omega
  | succ place ih =>
    have before := ih (Nat.lt_of_succ_lt below)
    have room := lodged.room _ (Shape.within_indexAt below)
    rw [v.address_indexAt lodged.has.rank packed below] at room
    rw [Nat.succ_mul] at room ⊢
    omega

theorem fits (bytes : v.shape.count * v.kind.size < 2 ^ 64) : v.Fits where
  bytes := bytes
  range packed place below := by
    have inside := lodged.place_bytes_le packed below
    have small := lodged.small
    have size := v.kind.size_pos
    omega

theorem takes (distinct : v.Distinct) : mem.Takes v where
  has := lodged.has
  separate := lodged.separate distinct
  fits := lodged.fits (Nat.lt_of_le_of_lt (lodged.separate distinct).bytes_le lodged.small)

end Lodged

end Memory

open QuantLinear.Action

/-- A new tensor has the next handle. -/
private theorem ends_allocateTensor_handle (shape : Shape) (kind : ElementKind) (device : Device)
    (machine : Machine) :
    (allocateTensor shape kind device).Ends machine
      (fun tensor _ => tensor.handle = machine.handles) (fun _ _ => True) := by
  simp only [allocateTensor, place, modifyMemory, share, ends_bind, ends_get, ends_modify, ends_set,
    ends_pure]
  refine (ends_requireRuntime device machine).mono (fun _ after there => ?_) fun _ _ _ => trivial
  rw [there]

/-- A tensor that is there keeps its handle on its own device, and is copied under a new one elsewhere. -/
private theorem ends_toDevice_handle {source : Tensor} {machine : Machine}
    (known : source.handle < machine.handles) (device : Device) :
    (toDevice source device).Ends machine
      (fun copy _ => copy.handle = source.handle ↔ device = source.device) (fun _ _ => True) := by
  simp only [toDevice, ends_bind, ends_ite, ends_pure]
  refine ⟨fun here => by simp [here], fun away => ?_⟩
  refine (ends_allocateTensor_handle source.shape source.kind device machine).mono
    (fun copy middle new => ?_) fun _ _ _ => trivial
  -- whatever the copy does, it is the new tensor that comes back
  refine (ends_somewhere _ middle).mono (fun _ _ _ => ?_) fun _ _ _ => trivial
  exact iff_of_false (by omega) away

section Refused

variable {target source : Tensor} (machine : Machine)

private theorem copyInto_of_shape_ne (other : source.shape ≠ target.shape) :
    copyInto (some target) (some source) machine = .error (.tensor .copyShape) machine := by
  have refused : (liftM (require (source.shape == target.shape) (.tensor .copyShape)) : Action Unit)
      machine = .error (.tensor .copyShape) machine := by
    rw [beq_false_of_ne other]
    rfl
  exact bind_failed refused _

private theorem copyInto_of_kind_ne (shape : source.shape = target.shape)
    (other : source.kind ≠ target.kind) :
    copyInto (some target) (some source) machine = .error (.tensor .copyKind) machine := by
  have passed : require (source.shape == target.shape) (.tensor .copyShape) = .ok () := by
    rw [beq_iff_eq.mpr shape]
    rfl
  have refused : (liftM (require (source.kind == target.kind) (.tensor .copyKind)) : Action Unit)
      machine = .error (.tensor .copyKind) machine := by
    rw [beq_false_of_ne other]
    rfl
  exact (bind_answered (lift_answered passed machine) _).trans (bind_failed refused _)

end Refused

/-- A copy into a tensor is refused where the shapes or the kinds differ, and then nothing has changed. A
copy that returns delivered all elements of its source to the elements of its target, index by index, and
changed no other byte of a storage that was there: so with different storages, and with elements of the
target that are distinct, in every layout and between any two devices. Between hosts with their built-in
runtime and kernels it does return. A tensor that was taken to a device has the shape, the kind and the
elements of its source, and is its source only where that lies on the device. -/
theorem copies_deliver (machine : Machine) :
    (∀ target source : Tensor,
      (source.shape ≠ target.shape →
        copyInto (some target) (some source) machine = .error (.tensor .copyShape) machine) ∧
      (source.shape = target.shape → source.kind ≠ target.kind →
        copyInto (some target) (some source) machine = .error (.tensor .copyKind) machine) ∧
      (target.shape = source.shape → target.kind = source.kind → machine.Serves target.device →
        machine.Serves source.device →
        ∃ after, copyInto (some target) (some source) machine = .ok () after) ∧
      ∀ after, copyInto (some target) (some source) machine = .ok () after →
        target.shape = source.shape ∧ target.kind = source.kind ∧
          (machine.memory.Lodged target.toView → target.Distinct →
            machine.memory.Lodged source.toView → source.storage ≠ target.storage →
            (∀ index, target.shape.Within index →
              after.memory.load target.toView index = machine.memory.load source.toView index) ∧
            (∀ address, ¬target.Covers target.storage address →
              after.memory.byte target.storage address =
                machine.memory.byte target.storage address) ∧
            after.memory.size target.storage = machine.memory.size target.storage ∧
            after.memory.contents source.storage = machine.memory.contents source.storage)) ∧
    ∀ (source : Tensor) (device : Device) (copy : Tensor) (after : Machine),
      toDevice source device machine = .ok copy after →
        copy.shape = source.shape ∧ copy.kind = source.kind ∧ copy.device = device ∧
          (source.handle < machine.handles →
            (copy.handle = source.handle ↔ device = source.device)) ∧
          (machine.memory.Lodged source.toView → source.shape.count * source.kind.size < 2 ^ 64 →
            ∀ index, copy.shape.Within index →
              after.memory.load copy.toView index = machine.memory.load source.toView index) := by
  refine ⟨fun target source =>
    ⟨copyInto_of_shape_ne machine, copyInto_of_kind_ne machine, ?_, ?_⟩, ?_⟩
  · intro shape kind first second
    obtain ⟨_, after, returned, -⟩ := (ends_copyInto kind shape machine).returned_of
      fun _ _ failed => failed.unserved ⟨first, second⟩
    exact ⟨after, returned⟩
  · intro after returned
    -- what was not refused has the shape and the kind of the source
    have shape : target.shape = source.shape := by
      by_contra other
      cases (copyInto_of_shape_ne machine (Ne.symm other)).symm.trans returned
    have kind : target.kind = source.kind := by
      by_contra other
      cases (copyInto_of_kind_ne machine shape.symm (Ne.symm other)).symm.trans returned
    refine ⟨shape, kind, fun lodged distinct there apart => ?_⟩
    -- the source has the count of the target, and with it few enough bytes
    have takes := lodged.takes distinct
    have poured := (ends_copyInto kind shape machine).answer returned
    have delivered := poured.delivers takes there.has
      (there.fits (by rw [← shape, ← kind]; exact takes.fits.bytes)) apart
    refine ⟨fun index inside => delivered.words index (by rwa [← shape]), fun address uncovered => ?_,
      delivered.touches.size _ lodged.has.stored, ?_⟩
    · exact delivered.touches.bytes _ lodged.has.stored address (by simpa using uncovered)
    · exact poured.follows.memory.contents _ there.has.stored (by simpa using apart)
  · intro source device copy after returned
    obtain ⟨copied, place, -⟩ := (ends_toDevice source device machine).answer returned
    refine ⟨copied.shape, copied.kind, place, fun known => ?_, fun there bytes index inside => ?_⟩
    · exact (ends_toDevice_handle known device).answer returned
    · exact copied.words there.has (there.fits bytes) index (by rwa [← copied.shape])

/-- A machine with an accelerator, kernels on all devices, and two storages. -/
def Machine.withAccelerator : Machine :=
  { Machine.initial with
    memory := (Memory.empty.allocate #[9, 9, 9, 9, 9]).allocate #[1, 2, 3, 4]
    handles := 2
    runtimes := fun type => if type = .cuda then some (.hosted 0) else some .builtin
    kernels := fun _ _ => some .reference
    uploads := #[0] }

/-- Two rows with a byte between them. -/
def spreadRows : Tensor where
  kind := .byte
  shape := [2, 2]
  strides := [3, 1]
  storage := 0
  offset := 0
  device := ⟨.cuda, 1⟩
  handle := 0

/-- Four bytes read column by column. -/
def turnedRows : Tensor where
  kind := .byte
  shape := [2, 2]
  strides := [1, 2]
  storage := 1
  offset := 0
  device := ⟨.cuda, 0⟩
  handle := 1

/-- The columns arrive as rows on the other accelerator, and the byte between the rows stays. -/
theorem copies_deliver_spreadRows : ∃ after,
    copyInto (some spreadRows) (some turnedRows) .withAccelerator = .ok () after ∧
      after.memory.load spreadRows.toView [0, 1] = 3 ∧ after.memory.byte 0 2 = 9 := by
  have target : Machine.withAccelerator.memory.Lodged spreadRows.toView :=
    ⟨⟨rfl, by decide⟩, by decide, by decide⟩
  have source : Machine.withAccelerator.memory.Lodged turnedRows.toView :=
    ⟨⟨rfl, by decide⟩, by decide, by decide⟩
  have returned : ∃ after,
      copyInto (some spreadRows) (some turnedRows) .withAccelerator = .ok () after := ⟨_, rfl⟩
  obtain ⟨after, returned⟩ := returned
  have copied := ((copies_deliver .withAccelerator).1 spreadRows turnedRows).2.2.2 after returned
  have delivered := copied.2.2 target (by decide) source (by decide)
  refine ⟨after, returned, ?_, (delivered.2.1 2 (by decide)).trans (by decide)⟩
  exact (delivered.1 [0, 1] (Shape.within_of_lt (by decide) (by decide))).trans (by decide)

end QuantLinear
