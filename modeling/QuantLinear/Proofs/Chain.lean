import QuantLinear.Proofs.PlainArray

/-!
Chains of operations on tensors, and the same chains on plain arrays.

Views share the bytes of their source and copies have bytes of their own, but each operation makes a
tensor that shows what the plain operation makes of the array of its source (`Link.ends_run`). So a
chain of any length shows what the plain chain makes of the first array (`ends_chain`).
-/

namespace QuantLinear

open QuantLinear.Action

/-- An operation that makes a tensor of the elements of another one. -/
inductive Link where
  | view (shape : Shape)
  | permute (order : List UInt64)
  | narrow (slices : List Slice)
  | contiguous
  | onDevice (device : Device)
deriving DecidableEq, Repr

/-- The bytes of the entries in row-major order have addresses below `2 ^ 63`. -/
def PlainArray.Addressable (array : PlainArray) : Prop :=
  ∀ place < array.shape.count, place * array.kind.size < 2 ^ 63

instance (array : PlainArray) : Decidable array.Addressable :=
  inferInstanceAs (Decidable (∀ place < array.shape.count, place * array.kind.size < 2 ^ 63))

namespace Link

def run (source : Tensor) : Link → Action Tensor
  | view shape => viewThrough (some source) (·.reshape shape)
  | permute order => viewThrough (some source) (·.permute order)
  | narrow slices => viewThrough (some source) (·.narrow slices)
  | contiguous => contiguousTensor source
  | onDevice device => toDevice source device

/-- What the operation makes of a plain array. -/
def plain (array : PlainArray) : Link → PlainArray
  | view shape => array.reshape shape
  | permute order => array.permute (order.map UInt64.toNat)
  | narrow slices => array.narrow slices
  | contiguous => array
  | onDevice device => { array with device := device }

/-- An operation whose counts and addresses stay below `2 ^ 63`, and whose slices lie on different
axes and end before the word does. -/
def Proper (array : PlainArray) : Link → Prop
  | view shape => shape.count < 2 ^ 63
  | permute _ => True
  | narrow slices => (slices.Pairwise fun a b => a.axis ≠ b.axis) ∧
      ∀ slice ∈ slices, slice.start.toNat + slice.length.toNat < 2 ^ 64
  | contiguous => array.Addressable
  | onDevice device => device = array.device ∨ array.Addressable

instance (link : Link) (array : PlainArray) : Decidable (link.Proper array) :=
  match link with
  | view shape => inferInstanceAs (Decidable (shape.count < 2 ^ 63))
  | permute _ => inferInstanceAs (Decidable True)
  | narrow slices => inferInstanceAs (Decidable ((slices.Pairwise fun a b => a.axis ≠ b.axis) ∧
      ∀ slice ∈ slices, slice.start.toNat + slice.length.toNat < 2 ^ 64))
  | contiguous => inferInstanceAs (Decidable array.Addressable)
  | onDevice device => inferInstanceAs (Decidable (device = array.device ∨ array.Addressable))

/-- Operations of which each is proper for what the ones before make of an array. -/
def ProperChain : PlainArray → List Link → Prop
  | _, [] => True
  | array, link :: rest => link.Proper array ∧ ProperChain (link.plain array) rest

instance decidableProperChain :
    (links : List Link) → (array : PlainArray) → Decidable (ProperChain array links)
  | [], _ => inferInstanceAs (Decidable True)
  | link :: rest, array =>
    have := decidableProperChain rest (link.plain array)
    inferInstanceAs (Decidable (link.Proper array ∧ ProperChain (link.plain array) rest))

end Link

/-- The operations of a chain one after another. -/
def chain (links : List Link) (source : Tensor) : Action Tensor := links.foldlM Link.run source

def plainChain (links : List Link) (array : PlainArray) : PlainArray := links.foldl Link.plain array

namespace Memory.Holds

variable {mem : Memory} {v : View}

theorem later {changed : List Nat} {after : Memory} (holds : mem.Holds v)
    (evolved : Evolves changed mem after) : after.Holds v where
  has := holds.has.later evolved
  count := holds.count
  room index inside := by
    rw [evolved.size v.storage holds.has.stored]
    exact holds.room index inside
  low := holds.low

private theorem of_dense (dense : mem.Dense v) (count : v.shape.count < 2 ^ 63)
    (addressable : (mem.array v).Addressable) : mem.Holds v where
  has := dense.has
  count := count
  room := dense.separate.room
  low index inside := by
    rw [dense.address_eq inside]
    exact addressable _ (Shape.placeOf_lt inside)

/-- The bytes of a copy can be counted. -/
theorem fits (holds : mem.Holds v) (addressable : (mem.array v).Addressable) : v.Fits where
  bytes := by
    rcases Nat.eq_zero_or_pos v.shape.count with none | some
    · rw [none]
      omega
    · have last := addressable (v.shape.count - 1) (Nat.sub_lt some Nat.one_pos)
      have size := v.kind.size_le
      change (v.shape.count - 1) * v.kind.size < 2 ^ 63 at last
      rw [Nat.sub_one_mul] at last
      omega
  range packed place below := by
    have last := addressable place below
    change place * v.kind.size < 2 ^ 63 at last
    have inside := Shape.within_indexAt (Nat.lt_of_le_of_lt (Nat.zero_le _) below)
    -- the first element lies at the offset
    have first : v.address (v.shape.indexAt 0) = v.offset.toNat := by
      have offset := v.offset.toNat_lt
      rw [v.address_indexAt holds.has.rank packed (Nat.lt_of_le_of_lt (Nat.zero_le _) below)]
      omega
    have low := holds.low _ inside
    omega

end Memory.Holds

/-- A tensor that shows an array, made between two machines without any change to what was there. -/
structure Shows (before : Machine) (tensor : Tensor) (array : PlainArray) (after : Machine) :
    Prop where
  follows : before.Follows [] after
  holds : after.memory.Holds tensor.toView
  array_eq : after.memory.array tensor.toView = array

/-- A copy shows the array of its source, on its own device. -/
theorem Copied.shows {before after : Machine} {source copy : Tensor}
    (copied : Copied before source copy after) (holds : before.memory.Holds source.toView)
    (addressable : (before.memory.array source.toView).Addressable) :
    Shows before copy { before.memory.array source.toView with device := copy.device } after := by
  have fits := holds.fits addressable
  have array : after.memory.array copy.toView =
      { before.memory.array source.toView with device := copy.device } := by
    rw [Memory.array, copied.elements holds.has fits, copied.kind, copied.shape]
    rfl
  refine ⟨copied.follows, ?_, array⟩
  -- without a copy the elements lie where they did, and else in a storage that they fill
  rcases copied.view with same | dense
  · rw [same]
    exact holds.later copied.follows.memory
  · apply Memory.Holds.of_dense (dense fits.bytes)
    · rw [copied.shape]
      exact holds.count
    · rw [array]
      exact addressable

/-- A view is made as far as the change of view is possible. -/
theorem ends_viewThrough (source : Tensor) (change : View → Except Fault View) (machine : Machine) :
    (viewThrough (some source) change).Ends machine
      (fun result after => machine.Follows [] after ∧ change source.toView = .ok result.toView ∧
        after.memory = machine.memory)
      (fun fault _ => change source.toView = .error fault) := by
  simp only [viewThrough, ends_bind, ends_defined]
  rw [ends_lift]
  constructor
  · intro w made
    refine (ends_share w machine).mono (fun result after shared => ?_) fun _ _ none => none.elim
    exact ⟨shared.1, by rw [made, shared.2.1], shared.2.2⟩
  · exact fun fault failed => failed

theorem viewThrough_returns_iff (source : Tensor) (change : View → Except Fault View)
    (machine : Machine) :
    (∃ result after, viewThrough (some source) change machine = .ok result after) ↔
      ∃ w, change source.toView = .ok w := by
  have ended := ends_viewThrough source change machine
  constructor
  · rintro ⟨result, after, returned⟩
    exact ⟨result.toView, (ended.answer returned).2.1⟩
  · rintro ⟨w, made⟩
    obtain ⟨result, after, returned, -⟩ := ended.returned_of fun fault _ failed => by
      rw [made] at failed
      cases failed
    exact ⟨result, after, returned⟩

/-- A view shows its array where it is the right view of the old bytes. -/
private theorem ends_viewThrough_shows {source : Tensor} {machine : Machine} {array : PlainArray}
    (change : View → Except Fault View)
    (right : ∀ w, change source.toView = .ok w →
      machine.memory.Holds w ∧ machine.memory.array w = array) :
    (viewThrough (some source) change).Ends machine
      (fun result after => Shows machine result array after) (fun _ _ => True) := by
  refine (ends_viewThrough source change machine).mono (fun result after made => ?_)
    fun _ _ _ => trivial
  obtain ⟨followed, changed, same⟩ := made
  obtain ⟨holds, shown⟩ := right _ changed
  rw [← same] at holds shown
  exact ⟨followed, holds, shown⟩

/-- Each operation makes a tensor that shows what the plain operation makes of its source. -/
theorem Link.ends_run {source : Tensor} {machine : Machine} (link : Link)
    (holds : machine.memory.Holds source.toView)
    (proper : link.Proper (machine.memory.array source.toView)) :
    (link.run source).Ends machine
      (fun result after => Shows machine result
        (link.plain (machine.memory.array source.toView)) after)
      (fun _ _ => True) := by
  cases link with
  | view shape =>
    apply ends_viewThrough_shows (·.reshape shape)
    intro w made
    exact Memory.array_reshape holds proper made
  | permute order =>
    apply ends_viewThrough_shows (·.permute order)
    intro w made
    exact Memory.array_permute holds made
  | narrow slices =>
    apply ends_viewThrough_shows (·.narrow slices)
    intro w made
    exact Memory.array_narrow holds proper.1 proper.2 made
  | contiguous =>
    refine (ends_contiguousTensor source machine).mono (fun result after made => ?_)
      fun _ _ _ => trivial
    obtain ⟨copied, device, -⟩ := made
    have shows := copied.shows holds proper
    rw [device] at shows
    exact shows
  | onDevice device =>
    refine (ends_toDevice source device machine).mono (fun result after made => ?_)
      fun _ _ _ => trivial
    obtain ⟨copied, there, same⟩ := made
    -- a tensor that is there already is not copied, however often its view repeats its bytes
    rcases proper with here | addressable
    · obtain ⟨rfl, rfl⟩ := same here.symm
      exact ⟨.refl _ _, holds, by rw [here]; rfl⟩
    · have shows := copied.shows holds addressable
      rw [there] at shows
      exact shows

/-- A chain makes a tensor that shows what the plain chain makes of its source. -/
theorem ends_chain {links : List Link} {source : Tensor} {machine : Machine}
    (holds : machine.memory.Holds source.toView)
    (proper : Link.ProperChain (machine.memory.array source.toView) links) :
    (chain links source).Ends machine
      (fun result after => Shows machine result
        (plainChain links (machine.memory.array source.toView)) after)
      (fun _ _ => True) := by
  -- by induction on the operations; each one hands on a tensor that the next may start from
  induction links generalizing source machine with
  | nil => exact ⟨.refl _ _, holds, rfl⟩
  | cons link rest ih =>
    rw [chain, List.foldlM_cons, ends_bind]
    refine (link.ends_run holds proper.1).mono (fun middle between first => ?_) fun _ _ _ => trivial
    have onward : Link.ProperChain (between.memory.array middle.toView) rest := by
      rw [first.array_eq]
      exact proper.2
    refine (ih first.holds onward).mono (fun result after last => ?_) fun _ _ _ => trivial
    refine ⟨first.follows.trans last.follows, last.holds, ?_⟩
    rw [last.array_eq, first.array_eq]
    rfl

/-- Tensors with strides behave as plain arrays: a chain of operations that returns shows what the plain
chain makes of the array. A tensor is read under another shape exactly where it has no gaps and as
many elements, its axes are put in exactly the orders of all of them, and a tensor made contiguous
has no gaps. -/
theorem tensors_refine_arrays {machine : Machine} {source : Tensor}
    (holds : machine.memory.Holds source.toView) :
    (∀ links result after, Link.ProperChain (machine.memory.array source.toView) links →
      chain links source machine = .ok result after →
      Shows machine result (plainChain links (machine.memory.array source.toView)) after) ∧
    (∀ shape : Shape, shape.count < 2 ^ 63 →
      ((∃ result after, (Link.view shape).run source machine = .ok result after) ↔
        source.isContiguous = true ∧ shape.count = source.shape.count)) ∧
    (∀ order, (∃ result after, (Link.permute order).run source machine = .ok result after) ↔
      (order.map UInt64.toNat).Perm (List.range source.rank)) ∧
    (∀ result after, Link.contiguous.run source machine = .ok result after →
      result.isContiguous = true) ∧
    (machine.Serves source.device → ∃ result after,
      Link.contiguous.run source machine = .ok result after) := by
  have contiguous := ends_contiguousTensor source machine
  refine ⟨?_, ?_, ?_, ?_, ?_⟩
  · intro links result after proper returned
    exact (ends_chain holds proper).answer returned
  · intro shape count
    rw [Link.run, viewThrough_returns_iff, ← View.numel_eq_iff count holds.count]
    simp only [View.reshape_eq_ok, exists_and_left, exists_eq, and_true]
  · intro order
    rw [Link.run, viewThrough_returns_iff]
    simp only [View.permute_eq_ok, exists_and_left, exists_eq, and_true]
  · intro result after returned
    exact (contiguous.answer returned).2.2.1
  · intro serves
    obtain ⟨result, after, returned, -⟩ := contiguous.returned_of fun _ _ failed => failed.2 serves
    exact ⟨result, after, returned⟩

/-- A machine with six bytes, and a second device whose runtime counts uploads. -/
def Machine.withSixBytes : Machine :=
  { Machine.initial with
    memory := Memory.empty.allocate #[1, 2, 3, 4, 5, 6]
    handles := 1
    runtimes := fun type =>
      match type with
      | .cpu => some .builtin
      | .cuda => some (.hosted 0)
      | .unknown => none
    uploads := #[0] }

/-- The six bytes in two rows. -/
def twoRows : Tensor where
  kind := .byte
  shape := [2, 3]
  strides := [3, 1]
  storage := 0
  offset := 0
  device := .host
  handle := 0

/-- Takes the last two columns, one after the other, to the second device. -/
def takeLastColumns : List Link :=
  [.permute [1, 0], .narrow [⟨0, 1, 2⟩], .contiguous, .onDevice ⟨.cuda, 0⟩, .view [4]]

theorem tensors_refine_arrays_twoRows : ∃ result after,
    chain takeLastColumns twoRows .withSixBytes = .ok result after ∧
      after.memory.array result.toView = ⟨.byte, ⟨.cuda, 0⟩, [4], [2, 5, 3, 6]⟩ := by
  have dense : Machine.withSixBytes.memory.Dense twoRows.toView :=
    ⟨rfl, rfl, by decide, by decide, by decide⟩
  have proper : Link.ProperChain (Machine.withSixBytes.memory.array twoRows.toView)
      takeLastColumns := by decide
  have returns : (match chain takeLastColumns twoRows .withSixBytes with
    | .ok _ _ => true
    | .error _ _ => false) = true := rfl
  split at returns
  · next result after returned =>
    have shows := (tensors_refine_arrays (.of_dense dense (by decide) (by decide))).1 _ _ _ proper
      returned
    exact ⟨result, after, returned, shows.array_eq⟩
  · cases returns

end QuantLinear
