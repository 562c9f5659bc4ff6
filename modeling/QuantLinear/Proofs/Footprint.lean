import QuantLinear.Proofs.Frame
import QuantLinear.Kernel.Operand

/-!
The bytes that writing to views may change.

A storage may hold several views side by side, or one in the gaps of another. What a write leaves alone
is therefore said of bytes: `Memory.Rewrites` lets those under the elements of the given views change
and keeps all others, so that a view whose elements share no byte with theirs shows the same words.
`Memory.Touches` lets new storages appear as well.
-/

namespace QuantLinear

namespace View

variable {v w : View}

/-- Whether a byte of a storage lies under an element of a view. -/
def Covers (v : View) (storage address : Nat) : Prop :=
  v.storage = storage ∧ ∃ index, v.shape.Within index ∧
    v.address index ≤ address ∧ address < v.address index + v.kind.size

/-- Whether no element of one view shares a byte with an element of the other. -/
def Disjoint (v w : View) : Prop :=
  ∀ i j, v.shape.Within i → w.shape.Within j → v.storage = w.storage →
    v.address i + v.kind.size ≤ w.address j ∨ w.address j + w.kind.size ≤ v.address i

theorem Disjoint.symm (apart : v.Disjoint w) : w.Disjoint v :=
  fun i j first second same => (apart j i second first same.symm).symm

/-- Views of different storages share no byte. -/
theorem Disjoint.of_storage (other : v.storage ≠ w.storage) : v.Disjoint w :=
  fun _ _ _ _ same => absurd same other

private theorem Disjoint.not_covers (apart : v.Disjoint w) {index : Index}
    (inside : w.shape.Within index)
    {i : Nat} (below : i < w.kind.size) : ¬v.Covers w.storage (w.address index + i) := by
  rintro ⟨same, other, within, lower, upper⟩
  rcases apart other index within inside same with before | behind <;> omega

end View

namespace Memory

theorem readBytes_congr {mem other : Memory} {storage address other_storage other_address count : Nat}
    (same : ∀ i < count, mem.byte storage (address + i) = other.byte other_storage (other_address + i)) :
    mem.readBytes storage address count = other.readBytes other_storage other_address count := by
  apply List.map_congr_left
  intro i member
  exact same i (List.mem_range.mp member)

/-- A memory as it may be after writes to elements of the given views. -/
structure Rewrites (views : List View) (before after : Memory) : Prop where
  next : after.next = before.next
  size : ∀ storage, after.size storage = before.size storage
  bytes : ∀ storage address, (∀ v ∈ views, ¬v.Covers storage address) →
    after.byte storage address = before.byte storage address

namespace Rewrites

variable {views more : List View} {before middle after : Memory}

theorem refl (views : List View) (mem : Memory) : Rewrites views mem mem :=
  ⟨rfl, fun _ => rfl, fun _ _ _ => rfl⟩

theorem trans (first : Rewrites views before middle) (second : Rewrites views middle after) :
    Rewrites views before after where
  next := second.next.trans first.next
  size storage := (second.size storage).trans (first.size storage)
  bytes storage address uncovered :=
    (second.bytes storage address uncovered).trans (first.bytes storage address uncovered)

theorem widen (rewritten : Rewrites views before after) (wider : ∀ v ∈ views, v ∈ more) :
    Rewrites more before after where
  next := rewritten.next
  size := rewritten.size
  bytes storage address uncovered :=
    rewritten.bytes storage address fun v member => uncovered v (wider v member)

/-- Writes to views are writes to their storages. -/
theorem evolves (rewritten : Rewrites views before after) :
    Evolves (views.map (·.storage)) before after where
  grows := Nat.le_of_eq rewritten.next.symm
  size storage _ := rewritten.size storage
  contents storage _ kept := by
    have size : (after.contents storage).size = (before.contents storage).size :=
      rewritten.size storage
    have bytes (address : Nat) : after.byte storage address = before.byte storage address := by
      apply rewritten.bytes
      rintro v member ⟨same, -⟩
      exact kept (List.mem_map.mpr ⟨v, member, same⟩)
    apply Array.ext size
    intro i first second
    simpa [byte, Array.getElem?_eq_getElem, first, second] using bytes i

/-- A view that shares no byte with the rewritten ones shows what it showed. -/
theorem load (rewritten : Rewrites views before after) {w : View}
    (apart : ∀ v ∈ views, v.Disjoint w) {index : Index} (inside : w.shape.Within index) :
    after.load w index = before.load w index := by
  rw [Memory.load, Memory.load, wordAt, wordAt, readBytes_congr]
  intro i below
  exact rewritten.bytes _ _ fun v member => (apart v member).not_covers inside below

theorem number (rewritten : Rewrites views before after) {w : View}
    (apart : ∀ v ∈ views, v.Disjoint w) (kind : FloatKind) {index : Index}
    (inside : w.shape.Within index) : after.number w kind index = before.number w kind index := by
  rw [Memory.number, rewritten.load apart inside, Memory.number]

end Rewrites

/-- A memory as it may be after writes to elements of the given views and to new storages. -/
structure Touches (views : List View) (before after : Memory) : Prop where
  grows : before.next ≤ after.next
  size : ∀ storage < before.next, after.size storage = before.size storage
  bytes : ∀ storage < before.next, ∀ address, (∀ v ∈ views, ¬v.Covers storage address) →
    after.byte storage address = before.byte storage address

theorem Rewrites.touches {views : List View} {before after : Memory}
    (rewritten : Rewrites views before after) : Touches views before after :=
  ⟨Nat.le_of_eq rewritten.next.symm, fun storage _ => rewritten.size storage,
    fun storage _ => rewritten.bytes storage⟩

theorem Evolves.touches {before after : Memory} (evolved : Evolves [] before after)
    (views : List View) : Touches views before after where
  grows := evolved.grows
  size := evolved.size
  bytes storage known address _ := by
    rw [byte, evolved.contents storage known List.not_mem_nil, byte]

namespace Touches

variable {views : List View} {before middle after : Memory}

theorem trans (first : Touches views before middle) (second : Touches views middle after) :
    Touches views before after where
  grows := Nat.le_trans first.grows second.grows
  size storage known := by
    rw [second.size storage (Nat.lt_of_lt_of_le known first.grows), first.size storage known]
  bytes storage known address uncovered := by
    rw [second.bytes storage (Nat.lt_of_lt_of_le known first.grows) address uncovered,
      first.bytes storage known address uncovered]

end Touches

theorem next_writeBytes (mem : Memory) (target start : Nat) (bytes : List UInt8) :
    (mem.writeBytes target start bytes).next = mem.next := by
  induction bytes generalizing mem start with
  | nil => rfl
  | cons value rest ih => rw [writeBytes, ih, next_setByte]

theorem rewrites_store (mem : Memory) {v : View} {index : Index} (inside : v.shape.Within index)
    (word : Nat) : Rewrites [v] mem (mem.store v index word) where
  next := next_writeBytes ..
  size storage := size_writeBytes ..
  bytes storage address uncovered := by
    rw [store, setWordAt, byte_writeBytes]
    split
    · next here =>
      -- a byte past the element is not written
      have past : v.address index + v.kind.size ≤ address :=
        Nat.le_of_not_lt fun under => uncovered v (List.mem_singleton.mpr rfl)
          ⟨here.1, index, inside, here.2.1, under⟩
      rw [List.getD_eq_getElem?_getD, List.getElem?_eq_none, Option.getD_none]
      rw [length_bytesOfWord]
      omega
    · rfl

end Memory

end QuantLinear
