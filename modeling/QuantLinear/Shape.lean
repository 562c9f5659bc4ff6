/-!
Extents and strides, and the index space that they span.

Extents are 64-bit words and their products wrap, as do strides. The index space is counted
with naturals and listed in row-major order: the list holds exactly the indices within the extents
(`mem_indices`).
-/

namespace QuantLinear

abbrev Shape := List UInt64

/-- The distance between neighbours on each axis, in elements. -/
abbrev Strides := List Int64

/-- A position on each axis. -/
abbrev Index := List Nat

/-- A list in brackets with its entries separated by commas. -/
def bracketed (entries : List String) : String := "[" ++ ", ".intercalate entries ++ "]"

/-- The quotient rounded up as 64-bit words compute it: the dividend may wrap on the way. -/
def ceilDiv (a b : UInt64) : UInt64 := (a + b - 1) / b

/-- The positions of a chunk when an axis is cut into chunks of `size`: from the first on, and below
the second. The last chunk ends with the axis. -/
def chunkRange (extent size chunk : UInt64) : Nat × Nat :=
  let first := chunk * size
  (first.toNat, (min extent (first + size)).toNat)

namespace Shape

def describe (shape : Shape) : String := bracketed (shape.map toString)

/-- The number of elements as a 64-bit word. -/
def numel (shape : Shape) : UInt64 := shape.foldr (· * ·) 1

def count (shape : Shape) : Nat := shape.foldr (fun extent inner => extent.toNat * inner) 1

@[simp] theorem count_nil : count [] = 1 := rfl

theorem count_cons (extent : UInt64) (inner : Shape) :
    count (extent :: inner) = extent.toNat * count inner := rfl

/-- The strides of row-major order without gaps. -/
def contiguousStrides : Shape → Strides
  | [] => []
  | _ :: inner => (numel inner).toInt64 :: contiguousStrides inner

/-- The step of the axis outside the given axes, when these are in row-major order without gaps.
An axis of extent one may have any stride. -/
def packedStep : Shape → Strides → Option Int64
  | extent :: shape, stride :: strides => do
    let expected ← packedStep shape strides
    if extent = 1 then some expected
    else if stride = expected then some (expected * extent.toInt64)
    else none
  | _, _ => some 1

/-- Whether strides place the elements in row-major order without gaps. -/
def isContiguous (shape : Shape) (strides : Strides) : Bool := (packedStep shape strides).isSome

/-- All positions on the given axes, the last axis fastest. -/
def positions : Shape → List Index
  | [] => [[]]
  | extent :: inner =>
    (List.range extent.toNat).flatMap fun i => (positions inner).map (i :: ·)

/-- The index space in row-major order; an axis without extent leaves it empty. -/
def indices (shape : Shape) : List Index := if shape.contains 0 then [] else positions shape

/-- Whether an index has a position within each axis. -/
def Within : Shape → Index → Prop
  | [], [] => True
  | extent :: shape, i :: index => i < extent.toNat ∧ Within shape index
  | _, _ => False

theorem mem_positions (shape : Shape) (index : Index) :
    index ∈ positions shape ↔ shape.Within index := by
  induction shape generalizing index with
  | nil => cases index <;> simp [positions, Within]
  | cons extent inner ih =>
    cases index with
    | nil => simp [positions, Within]
    | cons i rest => simp [positions, Within, ← ih]

theorem positions_eq_nil_of_mem_zero {shape : Shape} (empty : 0 ∈ shape) :
    positions shape = [] := by
  induction shape with
  | nil => simp at empty
  | cons extent inner ih =>
    rcases List.mem_cons.mp empty with here | later
    · simp [positions, ← here]
    · simp [positions, ih later]

theorem indices_eq_positions (shape : Shape) : indices shape = positions shape := by
  rw [indices]
  split
  · next empty => exact (positions_eq_nil_of_mem_zero (List.contains_iff_mem.mp empty)).symm
  · rfl

/-- The index space holds exactly the indices with a position within each axis. -/
theorem mem_indices (shape : Shape) (index : Index) :
    index ∈ indices shape ↔ shape.Within index := by
  rw [indices_eq_positions, mem_positions]

/-- The index at a place of the row-major order, where places below the number of elements have
one. -/
def indexAt : Shape → Nat → Index
  | [], _ => []
  | _ :: inner, place => place / count inner :: indexAt inner (place % count inner)

private theorem range_flatMap_range (rows columns : Nat) (entry : Nat → Nat → Index) :
    ((List.range rows).flatMap fun i => (List.range columns).map (entry i)) =
      (List.range (rows * columns)).map fun n => entry (n / columns) (n % columns) := by
  induction rows with
  | zero => simp
  | succ rows ih =>
    rw [List.range_succ, List.flatMap_append, ih, Nat.succ_mul, List.range_add, List.map_append]
    congr 1
    simp only [List.flatMap_cons, List.flatMap_nil, List.append_nil, List.map_map]
    apply List.map_congr_left
    intro column inside
    have inside := List.mem_range.mp inside
    have some := Nat.lt_of_le_of_lt (Nat.zero_le _) inside
    simp [Nat.mul_add_div, Nat.mul_comm rows columns, Nat.div_eq_of_lt inside, some,
      Nat.mod_eq_of_lt inside]

/-- The index space is listed by place. -/
theorem positions_eq_map_indexAt (shape : Shape) :
    positions shape = (List.range shape.count).map shape.indexAt := by
  induction shape with
  | nil => rfl
  | cons extent inner ih =>
    simp only [positions, ih, List.map_map]
    rw [count_cons]
    exact range_flatMap_range _ _ fun i place => i :: indexAt inner place

theorem length_positions (shape : Shape) : (positions shape).length = shape.count := by
  induction shape with
  | nil => rfl
  | cons extent inner ih =>
    simp only [positions, count_cons, List.length_flatMap, List.length_map, ih, List.map_const',
      List.length_range, List.sum_replicate_nat]

end Shape

/-- The distance of a position from the first element, in elements. -/
def elementOffset : Strides → Index → Int
  | stride :: strides, i :: index => i * stride.toInt + elementOffset strides index
  | _, _ => 0

end QuantLinear
