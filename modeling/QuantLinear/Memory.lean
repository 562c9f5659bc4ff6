import QuantLinear.Tensor.View

/-!
Storages of bytes, and the elements of views in them.

A word lies in its bytes from the lowest to the highest. A byte outside its storage reads as zero
and takes no write. Writing a range changes that range and nothing else (`byte_writeBytes`).

There is always room for one more storage, of any size: allocating never fails, no address of a storage
is known, and a storage has the bytes that were asked for and none of those that an allocator adds to
round a request up.
-/

namespace QuantLinear

/-- The number whose base 256 digits are the given bytes, the lowest first. -/
def wordOfBytes : List UInt8 → Nat
  | [] => 0
  | byte :: rest => byte.toNat + 256 * wordOfBytes rest

/-- The lowest `count` base 256 digits of a number, the lowest first. -/
def bytesOfWord : (count : Nat) → (word : Nat) → List UInt8
  | 0, _ => []
  | count + 1, word => UInt8.ofNat word :: bytesOfWord count (word / 256)

@[simp] theorem length_bytesOfWord (count word : Nat) :
    (bytesOfWord count word).length = count := by
  induction count generalizing word with
  | zero => rfl
  | succ count ih => simp [bytesOfWord, ih]

theorem bytesOfWord_wordOfBytes (bytes : List UInt8) :
    bytesOfWord bytes.length (wordOfBytes bytes) = bytes := by
  induction bytes with
  | nil => rfl
  | cons byte rest ih =>
    have low := byte.toNat_lt
    have lowest : UInt8.ofNat (byte.toNat + 256 * wordOfBytes rest) = byte := by
      apply UInt8.toNat_inj.mp
      simp only [UInt8.toNat_ofNat']
      omega
    have others : (byte.toNat + 256 * wordOfBytes rest) / 256 = wordOfBytes rest := by omega
    simp only [List.length_cons, wordOfBytes, bytesOfWord, lowest, others, ih]

/-- All storages, each named by its place. -/
structure Memory where
  storages : Array (Array UInt8)
deriving DecidableEq, Repr, Inhabited

namespace Memory

def empty : Memory := ⟨#[]⟩

/-- The place that the next storage takes. -/
def next (mem : Memory) : Nat := mem.storages.size

def allocate (mem : Memory) (bytes : Array UInt8) : Memory := ⟨mem.storages.push bytes⟩

/-- The bytes of a storage; a place that no storage has taken holds none. -/
def contents (mem : Memory) (storage : Nat) : Array UInt8 := mem.storages.getD storage #[]

def size (mem : Memory) (storage : Nat) : Nat := (mem.contents storage).size

def byte (mem : Memory) (storage address : Nat) : UInt8 := (mem.contents storage).getD address 0

def setByte (mem : Memory) (storage address : Nat) (byte : UInt8) : Memory :=
  ⟨mem.storages.modify storage (·.setIfInBounds address byte)⟩

/-- The bytes from an address on. -/
def readBytes (mem : Memory) (storage address count : Nat) : List UInt8 :=
  (List.range count).map fun i => mem.byte storage (address + i)

def writeBytes (mem : Memory) (storage address : Nat) : List UInt8 → Memory
  | [] => mem
  | byte :: rest => (mem.setByte storage address byte).writeBytes storage (address + 1) rest

theorem contents_allocate (mem : Memory) (bytes : Array UInt8) (storage : Nat) :
    (mem.allocate bytes).contents storage =
      if storage = mem.next then bytes else mem.contents storage := by
  simp only [contents, allocate, next, Array.getD_eq_getD_getElem?, Array.getElem?_push]
  split <;> rfl

theorem contents_setByte (mem : Memory) (target address : Nat) (value : UInt8) (storage : Nat) :
    (mem.setByte target address value).contents storage =
      if target = storage then (mem.contents storage).setIfInBounds address value
      else mem.contents storage := by
  simp only [contents, setByte, Array.getD_eq_getD_getElem?, Array.getElem?_modify]
  by_cases same : target = storage
  · cases mem.storages[storage]? <;> simp [same]
  · simp [same]

@[simp] theorem size_setByte (mem : Memory) (target address : Nat) (value : UInt8) (storage : Nat) :
    (mem.setByte target address value).size storage = mem.size storage := by
  rw [size, contents_setByte]
  split
  · exact Array.size_setIfInBounds
  · rfl

/-- A write changes the byte it names, where there is one, and no other. -/
theorem byte_setByte (mem : Memory) (target place : Nat) (value : UInt8) (storage address : Nat) :
    (mem.setByte target place value).byte storage address =
      if target = storage ∧ place = address ∧ address < mem.size storage then value
      else mem.byte storage address := by
  rw [byte, contents_setByte, byte, size]
  by_cases same : target = storage
  · by_cases here : place = address <;> by_cases inside : address < (mem.contents storage).size <;>
      simp [same, here, inside]
  · simp [same]

@[simp] theorem size_writeBytes (mem : Memory) (target start : Nat) (bytes : List UInt8)
    (storage : Nat) : (mem.writeBytes target start bytes).size storage = mem.size storage := by
  induction bytes generalizing mem start with
  | nil => rfl
  | cons byte rest ih => rw [writeBytes, ih, size_setByte]

/-- A written range holds what was written, as far as the storage reaches, and all other bytes are
as they were. -/
theorem byte_writeBytes (mem : Memory) (target start : Nat) (bytes : List UInt8)
    (storage address : Nat) :
    (mem.writeBytes target start bytes).byte storage address =
      if target = storage ∧ start ≤ address ∧ address < mem.size storage then
        bytes.getD (address - start) (mem.byte storage address)
      else mem.byte storage address := by
  induction bytes generalizing mem start with
  | nil => simp [writeBytes]
  | cons value rest ih =>
    rw [writeBytes, ih, byte_setByte, size_setByte]
    by_cases same : target = storage
    · by_cases inside : address < mem.size storage
      · rcases Nat.lt_trichotomy start address with later | here | before
        · have next : address - start = address - (start + 1) + 1 := by omega
          simp [same, inside, next, Nat.le_of_lt later, Nat.ne_of_lt later, Nat.succ_le_of_lt later]
        · have passed : ¬address + 1 ≤ address := by omega
          simp [same, inside, here, passed]
        · have apart : start ≠ address := by omega
          have below : ¬start ≤ address := by omega
          have lower : ¬start + 1 ≤ address := by omega
          simp [apart, below, lower]
      · simp [inside]
    · simp [same]

/-- The word of the element at an address of a view. -/
def wordAt (mem : Memory) (v : View) (address : Nat) : Nat :=
  wordOfBytes (mem.readBytes v.storage address v.kind.size)

def setWordAt (mem : Memory) (v : View) (address word : Nat) : Memory :=
  mem.writeBytes v.storage address (bytesOfWord v.kind.size word)

/-- The word of the element at a position of a view. -/
def load (mem : Memory) (v : View) (index : Index) : Nat := mem.wordAt v (v.address index)

def store (mem : Memory) (v : View) (index : Index) (word : Nat) : Memory :=
  mem.setWordAt v (v.address index) word

/-- The words of a view's elements in row-major order, as many as its 64-bit count says. -/
def elements (mem : Memory) (v : View) : List Nat :=
  (List.range v.numel.toNat).map fun place => mem.load v (v.shape.indexAt place)

/-- Copies bytes between storages; what the source holds on entry arrives, also where the two
ranges overlap. -/
def copyBytes (mem : Memory) (target targetAddress source sourceAddress count : Nat) : Memory :=
  mem.writeBytes target targetAddress (mem.readBytes source sourceAddress count)

end Memory

end QuantLinear
