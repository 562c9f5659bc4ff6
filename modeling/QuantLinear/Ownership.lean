import QuantLinear.Device

/-!
Ownership of buffers: named slots hold buffers, buffers move between slots, and a buffer that is
dropped is released by its owner. A slot is read back as it was last filled (`find?_put`).
-/

namespace QuantLinear

/-- A buffer as its holder sees it. A buffer that was moved away keeps its size and device. -/
structure Buffer where
  /-- The memory that the buffer points to; `none` where it points nowhere. -/
  memory : Option Nat
  size : UInt64
  device : Device
  /-- Whether dropping the buffer releases its memory. -/
  owning : Bool
deriving DecidableEq, Repr

namespace Buffer

/-- What remains of a buffer whose memory moved away. -/
def emptied (buffer : Buffer) : Buffer := { buffer with memory := none, owning := false }

/-- The memory that is released when a buffer is dropped. -/
def released (buffer : Buffer) : List Nat := if buffer.owning then buffer.memory.toList else []

end Buffer

/-- The buffers held by named slots, ordered by name. -/
abbrev Slots := List (String × Buffer)

namespace Slots

def find? (slots : Slots) (name : String) : Option Buffer := slots.lookup name

def put (slots : Slots) (name : String) (buffer : Buffer) : Slots :=
  match slots with
  | [] => [(name, buffer)]
  | (other, held) :: rest =>
    if name = other then (name, buffer) :: rest
    else if name < other then (name, buffer) :: (other, held) :: rest
    else (other, held) :: put rest name buffer

def erase (slots : Slots) (name : String) : Slots := slots.filter (·.1 != name)

theorem find?_cons (key : String) (held : Buffer) (rest : Slots) (name : String) :
    find? ((key, held) :: rest) name = if name = key then some held else find? rest name := by
  rw [find?, List.lookup_cons]
  split <;> simp_all [find?]

theorem find?_put (slots : Slots) (name other : String) (buffer : Buffer) :
    (slots.put name buffer).find? other =
      if other = name then some buffer else slots.find? other := by
  induction slots with
  | nil => rw [put, find?_cons]
  | cons entry rest ih =>
    obtain ⟨key, held⟩ := entry
    simp only [put]
    split
    · next here => rw [find?_cons, find?_cons, here]; grind
    · split
      · rw [find?_cons]
      · rw [find?_cons, find?_cons, ih]; grind

/-- The memory that is released when what a slot holds is dropped. -/
def releasedAt (slots : Slots) (name : String) : List Nat :=
  ((slots.find? name).map Buffer.released).getD []

/-- The memory that is released when all buffers are dropped in the order of their slots. -/
def releasedAll (slots : Slots) : List Nat := slots.flatMap (·.2.released)

end Slots

/-- A step in the life of buffers. -/
inductive OwnershipStep where
  | create (slot : String) (buffer : Buffer)
  /-- Puts a new buffer into a slot that takes the memory of another slot's buffer. -/
  | moveConstruct (slot source : String)
  /-- Moves the memory of another slot's buffer to the buffer that a slot holds. -/
  | moveAssign (slot source : String)
  | destroy (slot : String)
  /-- Looks at the buffer that a slot holds, if any. -/
  | inspect (slot : String)
deriving DecidableEq, Repr

namespace OwnershipStep

/-- The slot that a step is about. -/
def slot : OwnershipStep → String
  | .create slot _ | .moveConstruct slot _ | .moveAssign slot _ | .destroy slot | .inspect slot =>
    slot

/-- The slots after a step, and the memory that it released. -/
def apply (slots : Slots) : OwnershipStep → Slots × List Nat
  | .create slot buffer => (slots.put slot buffer, slots.releasedAt slot)
  | .moveConstruct slot source =>
    match slots.find? source with
    | none => (slots, [])
    | some moved =>
      let emptied := slots.put source moved.emptied
      (emptied.put slot moved, emptied.releasedAt slot)
  | .moveAssign slot source =>
    match slots.find? source, slots.find? slot with
    | some moved, some held =>
      if slot = source then (slots, [])
      else ((slots.put slot moved).put source moved.emptied, held.released)
    | _, _ => (slots, [])
  | .destroy slot => (slots.erase slot, slots.releasedAt slot)
  | .inspect _ => (slots, [])

end OwnershipStep

end QuantLinear
