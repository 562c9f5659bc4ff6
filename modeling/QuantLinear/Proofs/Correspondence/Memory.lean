import QuantLinear.Kernel.Packed
import QuantLinear.Proofs.Frame
import QuantLinear.Proofs.Parallel

/-!
Memories of two runs that part.

Two runs that start from one memory go on with the same storages, and each adds its own. Storages
that hold the same in both runs are paired: one that was there before with itself, and new ones by
the order in which they are added. Reading through paired storages gives the same, and writing the
same through paired storages keeps the memories in correspondence.
-/

namespace QuantLinear

/-- The same view of another storage. -/
def View.over (v : View) (storage : Nat) : View := { v with storage := storage }

/-- The same texts and the same class. -/
def Fault.Alike (fault other : Fault) : Prop :=
  other.kind = fault.kind ∧ other.message? = fault.message?

theorem Fault.Alike.refl (fault : Fault) : fault.Alike fault := ⟨rfl, rfl⟩

/-- Where the storages of two runs lie. Those below `base` are common to both runs; the next one is
added at `left` in one run and at `right` in the other. -/
structure Correspondence where
  base : Nat
  left : Nat
  right : Nat
  fromLeft : base ≤ left
  fromRight : base ≤ right

namespace Correspondence

/-- Storages of two runs that stand for each other. -/
def Pairs (c : Correspondence) (storage other : Nat) : Prop :=
  storage < c.base ∧ other = storage ∨ c.left ≤ storage ∧ storage + c.right = other + c.left

private theorem Pairs.eq_iff {c : Correspondence} {first other second same : Nat}
    (one : c.Pairs first other) (two : c.Pairs second same) : other = same ↔ first = second := by
  have fromLeft := c.fromLeft
  have fromRight := c.fromRight
  unfold Pairs at one two
  omega

/-- Memories of two runs: paired storages hold the same bytes, and the storages that are added next
are paired. -/
structure Memories (c : Correspondence) (mem other : Memory) : Prop where
  parted : c.left ≤ mem.next
  next : mem.next + c.right = other.next + c.left
  contents : ∀ storage same, c.Pairs storage same → other.contents same = mem.contents storage

namespace Memories

variable {c : Correspondence} {mem other : Memory}

private theorem pairs_next (alike : c.Memories mem other) : c.Pairs mem.next other.next :=
  .inr ⟨alike.parted, alike.next⟩

section Reads

variable {v : View} {storage : Nat} (alike : c.Memories mem other)
  (paired : c.Pairs v.storage storage)

include alike paired

theorem readBytes (address count : Nat) :
    other.readBytes storage address count = mem.readBytes v.storage address count := by
  simp only [Memory.readBytes, Memory.byte, alike.contents _ _ paired]

theorem wordAt (address : Nat) : other.wordAt (v.over storage) address = mem.wordAt v address := by
  rw [Memory.wordAt, Memory.wordAt]
  exact congrArg wordOfBytes (alike.readBytes paired address v.kind.size)

theorem load (index : Index) : other.load (v.over storage) index = mem.load v index :=
  alike.wordAt paired (v.address index)

theorem number (kind : FloatKind) (index : Index) :
    other.number (v.over storage) kind index = mem.number v kind index := by
  rw [Memory.number, Memory.number, alike.load paired]

theorem scaleNumber (kind : FloatKind) (i : Nat) :
    other.scaleNumber (v.over storage) kind i = mem.scaleNumber v kind i := by
  simp only [Memory.scaleNumber, alike.wordAt paired]
  rfl

theorem numbers (kind : FloatKind) :
    other.numbers (v.over storage) kind = mem.numbers v kind := by
  simp only [Memory.numbers, alike.number paired]
  rfl

theorem decodeMatrix : other.decodeMatrix (v.over storage) = mem.decodeMatrix v := by
  simp only [Memory.decodeMatrix, alike.numbers paired]
  rfl

theorem packedNumber (outFeatures : UInt64) (row column : Nat) :
    Kernel.packedNumber other (v.over storage) outFeatures row column =
      Kernel.packedNumber mem v outFeatures row column := by
  simp only [Kernel.packedNumber, Memory.byte, View.over, alike.contents _ _ paired]
  rfl

theorem elements : other.elements (v.over storage) = mem.elements v := by
  simp only [Memory.elements, alike.load paired]
  rfl

end Reads

section Writes

variable {target same : Nat} (alike : c.Memories mem other) (paired : c.Pairs target same)

theorem allocate (alike : c.Memories mem other) (bytes : Array UInt8) :
    c.Memories (mem.allocate bytes) (other.allocate bytes) where
  parted := by rw [Memory.next_allocate]; exact Nat.le_succ_of_le alike.parted
  next := by
    have next := alike.next
    rw [Memory.next_allocate, Memory.next_allocate]
    omega
  contents storage twin pair := by
    simp only [Memory.contents_allocate, alike.contents _ _ pair, pair.eq_iff alike.pairs_next]

include alike paired

theorem setByte (address : Nat) (byte : UInt8) :
    c.Memories (mem.setByte target address byte) (other.setByte same address byte) where
  parted := by rw [Memory.next_setByte]; exact alike.parted
  next := by rw [Memory.next_setByte, Memory.next_setByte]; exact alike.next
  contents storage twin pair := by
    simp only [Memory.contents_setByte, alike.contents _ _ pair, paired.eq_iff pair]

theorem writeBytes (address : Nat) (bytes : List UInt8) :
    c.Memories (mem.writeBytes target address bytes) (other.writeBytes same address bytes) := by
  induction bytes generalizing mem other address with
  | nil => exact alike
  | cons byte rest ih => exact ih (alike.setByte paired address byte) (address + 1)

theorem copyBytes {source twin : Nat} (sources : c.Pairs source twin)
    (targetAddress sourceAddress count : Nat) :
    c.Memories (mem.copyBytes target targetAddress source sourceAddress count)
      (other.copyBytes same targetAddress twin sourceAddress count) := by
  have bytes : other.readBytes twin sourceAddress count =
      mem.readBytes source sourceAddress count := by
    simp only [Memory.readBytes, Memory.byte, alike.contents _ _ sources]
  rw [Memory.copyBytes, Memory.copyBytes, bytes]
  exact alike.writeBytes paired targetAddress _

end Writes

theorem setNumber {v : View} {storage : Nat} (alike : c.Memories mem other)
    (paired : c.Pairs v.storage storage) (kind : FloatKind) (index : Index) (x : Binary32) :
    c.Memories (mem.setNumber v kind index x) (other.setNumber (v.over storage) kind index x) :=
  alike.writeBytes paired (v.address index) _

end Memories

/-- Two runs that started from one memory and wrote to none of its storages. -/
def since {start mem other : Memory} (first : start.Evolves [] mem)
    (second : start.Evolves [] other) : Correspondence where
  base := start.next
  left := mem.next
  right := other.next
  fromLeft := first.grows
  fromRight := second.grows

theorem memories_since {start mem other : Memory} (first : start.Evolves [] mem)
    (second : start.Evolves [] other) : (since first second).Memories mem other where
  parted := Nat.le_refl _
  next := Nat.add_comm _ _
  contents storage same paired := by
    rcases paired with ⟨known, rfl⟩ | ⟨new, next⟩
    · rw [first.contents _ known List.not_mem_nil, second.contents _ known List.not_mem_nil]
    · -- what has not been added yet is empty
      have missing : other.next ≤ same := by
        simp only [since] at new next
        omega
      simp only [Memory.contents, Array.getD_eq_getD_getElem?, Array.getElem?_eq_none missing,
        Array.getElem?_eq_none new]

end Correspondence

end QuantLinear
