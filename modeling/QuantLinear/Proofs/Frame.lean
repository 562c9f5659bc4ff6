import QuantLinear.Proofs.Action

/-!
What work on tensors leaves alone.

Such work adds storages and writes to some that are there; it takes none away, changes no size and
no layer, and asks nothing of the observer. `Memory.Evolves` says so of the storages and
`Machine.Follows` of the whole machine, both relative to the storages that may have been written.
-/

namespace QuantLinear

namespace Memory

/-- A memory as it may be after work that writes to the storages `changed` and to new ones. -/
structure Evolves (changed : List Nat) (before after : Memory) : Prop where
  grows : before.next ≤ after.next
  size : ∀ storage < before.next, after.size storage = before.size storage
  contents : ∀ storage < before.next, storage ∉ changed →
    after.contents storage = before.contents storage

namespace Evolves

variable {changed more : List Nat} {before middle after : Memory}

theorem refl (changed : List Nat) (mem : Memory) : Evolves changed mem mem :=
  ⟨Nat.le_refl _, fun _ _ => rfl, fun _ _ _ => rfl⟩

theorem trans (first : Evolves changed before middle) (second : Evolves more middle after) :
    Evolves (changed ++ more) before after where
  grows := Nat.le_trans first.grows second.grows
  size storage known := by
    rw [second.size storage (Nat.lt_of_lt_of_le known first.grows), first.size storage known]
  contents storage known kept := by
    have apart := not_or.mp (fun either => kept (List.mem_append.mpr either))
    rw [second.contents storage (Nat.lt_of_lt_of_le known first.grows) apart.2,
      first.contents storage known apart.1]

/-- Storages that are new at the end need no mention. -/
theorem fresh (evolved : Evolves changed before after) (new : ∀ s ∈ changed, before.next ≤ s) :
    Evolves [] before after where
  grows := evolved.grows
  size := evolved.size
  contents storage known _ :=
    evolved.contents storage known fun member => Nat.not_le_of_lt known (new storage member)

theorem same {changed : List Nat} (first : Evolves changed before middle)
    (second : Evolves changed middle after) : Evolves changed before after where
  grows := Nat.le_trans first.grows second.grows
  size := (first.trans second).size
  contents storage known kept :=
    (first.trans second).contents storage known (by simpa using kept)

theorem widen (evolved : Evolves changed before after) (more_changed : ∀ s ∈ changed, s ∈ more) :
    Evolves more before after where
  grows := evolved.grows
  size := evolved.size
  contents storage known kept :=
    evolved.contents storage known fun member => kept (more_changed storage member)

theorem wordAt (evolved : Evolves changed before after) {v : View} (known : v.storage < before.next)
    (kept : v.storage ∉ changed) (address : Nat) :
    after.wordAt v address = before.wordAt v address := by
  have bytes := evolved.contents v.storage known kept
  simp only [Memory.wordAt, readBytes, byte, bytes]

theorem load (evolved : Evolves changed before after) {v : View} (known : v.storage < before.next)
    (kept : v.storage ∉ changed) (index : Index) : after.load v index = before.load v index :=
  evolved.wordAt known kept _

end Evolves

theorem next_setByte (mem : Memory) (target address : Nat) (value : UInt8) :
    (mem.setByte target address value).next = mem.next := by
  simp [setByte, next]

theorem evolves_setByte (mem : Memory) (target address : Nat) (value : UInt8) :
    Evolves [target] mem (mem.setByte target address value) where
  grows := Nat.le_of_eq (next_setByte ..).symm
  size storage _ := size_setByte mem target address value storage
  contents storage _ kept := by
    have apart : target ≠ storage := fun same => kept (List.mem_singleton.mpr same.symm)
    rw [contents_setByte, if_neg apart]

theorem evolves_writeBytes (mem : Memory) (target start : Nat) (bytes : List UInt8) :
    Evolves [target] mem (mem.writeBytes target start bytes) := by
  induction bytes generalizing mem start with
  | nil => exact .refl _ _
  | cons value rest ih => exact (evolves_setByte ..).same (ih _ _)

theorem evolves_store (mem : Memory) (v : View) (index : Index) (word : Nat) :
    Evolves [v.storage] mem (mem.store v index word) := evolves_writeBytes ..

theorem evolves_allocate (mem : Memory) (bytes : Array UInt8) :
    Evolves [] mem (mem.allocate bytes) where
  grows := by simp [next, allocate]
  size storage known := by
    rw [size, contents_allocate, if_neg (Nat.ne_of_lt known), size]
  contents storage known _ := by rw [contents_allocate, if_neg (Nat.ne_of_lt known)]

theorem next_allocate (mem : Memory) (bytes : Array UInt8) :
    (mem.allocate bytes).next = mem.next + 1 := by simp [next, allocate]

/-- Steps that each change some storages change no others together. -/
theorem evolves_foldl {β : Type} {changed : List Nat} {step : Memory → β → Memory}
    (each : ∀ mem x, Evolves changed mem (step mem x)) (mem : Memory) (steps : List β) :
    Evolves changed mem (steps.foldl step mem) := by
  induction steps generalizing mem with
  | nil => exact .refl _ _
  | cons x rest ih => exact (each mem x).same (ih _)

/-- A tensor that exists: it has a stride for each axis, and its storage is there. -/
structure Has (mem : Memory) (v : View) : Prop where
  rank : v.strides.length = v.shape.length
  stored : v.storage < mem.next

theorem Has.grown {before after : Memory} {v : View} (here : before.Has v)
    (grows : before.next ≤ after.next) : after.Has v :=
  ⟨here.rank, Nat.lt_of_lt_of_le here.stored grows⟩

theorem Has.later {changed : List Nat} {before after : Memory} {v : View} (here : before.Has v)
    (evolved : Evolves changed before after) : after.Has v := here.grown evolved.grows

end Memory

namespace Machine

/-- A machine as it may be after work on tensors that writes to the storages `changed` and to new
ones. -/
structure Follows (changed : List Nat) (before after : Machine) : Prop where
  layers : after.layers = before.layers
  runtimes : after.runtimes = before.runtimes
  kernels : after.kernels = before.kernels
  observer : after.observer = before.observer
  reports : after.reports = before.reports
  placeholders : after.placeholders = before.placeholders
  memory : before.memory.Evolves changed after.memory

namespace Follows

variable {changed more : List Nat} {before middle after : Machine}

theorem refl (changed : List Nat) (machine : Machine) : Follows changed machine machine :=
  ⟨rfl, rfl, rfl, rfl, rfl, rfl, .refl _ _⟩

theorem trans (first : Follows changed before middle) (second : Follows more middle after) :
    Follows (changed ++ more) before after where
  layers := second.layers.trans first.layers
  runtimes := second.runtimes.trans first.runtimes
  kernels := second.kernels.trans first.kernels
  observer := second.observer.trans first.observer
  reports := second.reports.trans first.reports
  placeholders := second.placeholders.trans first.placeholders
  memory := first.memory.trans second.memory

theorem same (first : Follows changed before middle) (second : Follows changed middle after) :
    Follows changed before after :=
  { first.trans second with memory := first.memory.same second.memory }

theorem fresh (followed : Follows changed before after)
    (new : ∀ s ∈ changed, before.memory.next ≤ s) : Follows [] before after :=
  { followed with memory := followed.memory.fresh new }

/-- Work that starts without a change and goes on with changes to new storages only. -/
theorem thenFresh (first : Follows [] before middle) (second : Follows more middle after)
    (new : ∀ s ∈ more, before.memory.next ≤ s) : Follows [] before after :=
  (first.trans second).fresh (by simpa using new)

end Follows

end Machine

end QuantLinear
