import QuantLinear.Tensor.View
import Mathlib.Data.Int.ModEq
import Mathlib.Data.List.Nodup
import Mathlib.Data.List.Perm.Subperm

/-!
Places in the row-major order, and the strides that follow it.

A place is found back from its index (`placeOf_indexAt`, `indexAt_placeOf`). Strides are 64-bit
words and wrap, so offsets are compared modulo the word: strides without gaps put each index at its
place (`offset_eq_place`).
-/

namespace QuantLinear

/-- A 64-bit word keeps its value modulo the word when it is read with a sign. -/
theorem toInt_toInt64_modEq (x : UInt64) : x.toInt64.toInt ≡ x.toNat [ZMOD 2 ^ 64] := by
  have signed : x.toInt64.toInt = (x.toNat : Int).bmod (2 ^ 64) :=
    BitVec.toInt_eq_toNat_bmod x.toBitVec
  rw [signed]
  exact Int.bmod_emod

theorem toNat_toUInt64_modEq (x : Int64) : (x.toUInt64.toNat : Int) ≡ x.toInt [ZMOD 2 ^ 64] := by
  have word := toInt_toInt64_modEq x.toUInt64
  rw [Int64.toInt64_toUInt64] at word
  exact word.symm

theorem toNat_add_modEq (a b : UInt64) : ((a + b).toNat : Int) ≡ a.toNat + b.toNat [ZMOD 2 ^ 64] := by
  rw [UInt64.toNat_add]
  push_cast
  exact Int.mod_modEq _ _

theorem toNat_mul_modEq (a b : UInt64) : ((a * b).toNat : Int) ≡ a.toNat * b.toNat [ZMOD 2 ^ 64] := by
  rw [UInt64.toNat_mul]
  push_cast
  exact Int.mod_modEq _ _

theorem toNat_pos_of_ne_zero {a : UInt64} (some : a ≠ 0) : 0 < a.toNat := by
  rw [Nat.pos_iff_ne_zero]
  exact fun zero => some (UInt64.toNat_inj.mp zero)

theorem toInt_mul_modEq (a b : Int64) : (a * b).toInt ≡ a.toInt * b.toInt [ZMOD 2 ^ 64] := by
  rw [Int64.toInt_mul]
  exact Int.bmod_emod

theorem elementOffset_cons (stride : Int64) (strides : Strides) (i : Nat) (index : Index) :
    elementOffset (stride :: strides) (i :: index) =
      i * stride.toInt + elementOffset strides index := by
  rw [elementOffset]

theorem elementOffset_nil_left (index : Index) : elementOffset [] index = 0 := by
  simp only [elementOffset]

theorem View.extent_pair {v : View} {rows columns : UInt64} (shape : v.shape = [rows, columns]) :
    v.extent 0 = rows ∧ v.extent 1 = columns := by
  simp [View.extent, shape]

/-- The orders of the numbers below `count`. -/
theorem perm_range_iff {order : List Nat} {count : Nat} :
    order.Perm (List.range count) ↔
      order.length = count ∧ (∀ place ∈ order, place < count) ∧ order.Nodup := by
  constructor
  · intro perm
    refine ⟨by rw [perm.length_eq, List.length_range], fun place member => ?_,
      perm.nodup_iff.mpr List.nodup_range⟩
    exact List.mem_range.mp (perm.mem_iff.mp member)
  · rintro ⟨length, below, distinct⟩
    have inside : order.Subperm (List.range count) :=
      List.subperm_of_subset distinct fun place member => List.mem_range.mpr (below place member)
    exact inside.perm_of_length_le (by rw [length, List.length_range])

namespace Shape

theorem numel_cons (extent : UInt64) (inner : Shape) :
    numel (extent :: inner) = extent * numel inner := rfl

theorem toNat_numel (shape : Shape) : shape.numel.toNat = shape.count % 2 ^ 64 := by
  induction shape with
  | nil => rfl
  | cons extent inner ih => rw [numel_cons, count_cons, UInt64.toNat_mul, ih, Nat.mul_mod_mod]

theorem toNat_numel_of_lt {shape : Shape} (fits : shape.count < 2 ^ 64) :
    shape.numel.toNat = shape.count := by rw [toNat_numel, Nat.mod_eq_of_lt fits]

theorem count_pos {shape : Shape} (full : 0 ∉ shape) : 0 < shape.count := by
  induction shape with
  | nil => exact Nat.one_pos
  | cons extent inner ih =>
    obtain ⟨here, later⟩ := not_or.mp fun either => full (List.mem_cons.mpr either)
    exact Nat.mul_pos (toNat_pos_of_ne_zero (Ne.symm here)) (ih later)

/-- Where every axis has an extent there is an index. -/
theorem indices_ne_nil {shape : Shape} (full : ¬shape.contains 0) : shape.indices ≠ [] := by
  have some := count_pos fun member => full (List.contains_iff_mem.mpr member)
  rw [← length_positions, ← indices_eq_positions] at some
  exact List.ne_nil_of_length_pos some

theorem Within.length_eq {shape : Shape} {index : Index} (inside : shape.Within index) :
    index.length = shape.length := by
  induction shape generalizing index with
  | nil => cases index with
    | nil => rfl
    | cons i rest => exact inside.elim
  | cons extent inner ih => cases index with
    | nil => exact inside.elim
    | cons i rest => simp [ih inside.2]

theorem count_pair (rows columns : UInt64) : count [rows, columns] = rows.toNat * columns.toNat := by
  simp [count_cons]

theorem within_of_lt {rows columns : UInt64} {row column : Nat} (inRows : row < rows.toNat)
    (inColumns : column < columns.toNat) : Within [rows, columns] [row, column] :=
  ⟨inRows, inColumns, trivial⟩

theorem within_pair {rows columns : UInt64} {index : Index} :
    Within [rows, columns] index ↔
      ∃ row < rows.toNat, ∃ column < columns.toNat, index = [row, column] := by
  constructor
  · intro inside
    match index, inside with
    | [row, column], inside => exact ⟨row, inside.1, column, inside.2.1, rfl⟩
  · rintro ⟨row, inRows, column, inColumns, rfl⟩
    exact within_of_lt inRows inColumns

/-- The positions of a matrix that come before a position, row by row. -/
def Before (row column : Nat) : Index → Prop
  | [i, j] => i < row ∨ i = row ∧ j < column
  | _ => False

theorem before_zero (index : Index) : ¬Before 0 0 index := by
  intro reached
  unfold Before at reached
  split at reached
  · omega
  · exact reached

theorem before_succ {rows columns : UInt64} {row column : Nat} {index : Index}
    (inside : Within [rows, columns] index) :
    Before row (column + 1) index ↔ Before row column index ∨ index = [row, column] := by
  obtain ⟨i, _, j, _, rfl⟩ := within_pair.mp inside
  simp only [Before, List.cons.injEq, and_true]
  omega

/-- A whole row is done as soon as its last column is. -/
theorem before_row {rows columns : UInt64} {row : Nat} {index : Index}
    (inside : Within [rows, columns] index) :
    Before (row + 1) 0 index ↔ Before row columns.toNat index := by
  obtain ⟨i, _, j, inColumns, rfl⟩ := within_pair.mp inside
  simp only [Before]
  omega

/-- The place of an index in the row-major order. -/
def placeOf : Shape → Index → Nat
  | _ :: inner, i :: index => i * count inner + placeOf inner index
  | _, _ => 0

theorem placeOf_cons (extent : UInt64) (inner : Shape) (i : Nat) (index : Index) :
    placeOf (extent :: inner) (i :: index) = i * count inner + placeOf inner index := rfl

theorem placeOf_nil (index : Index) : placeOf [] index = 0 := by simp [placeOf]

theorem placeOf_lt {shape : Shape} {index : Index} (inside : shape.Within index) :
    shape.placeOf index < shape.count := by
  induction shape generalizing index with
  | nil => simp [placeOf_nil, count]
  | cons extent inner ih => cases index with
    | nil => exact inside.elim
    | cons i rest =>
      have within := ih inside.2
      have row : (i + 1) * count inner ≤ extent.toNat * count inner :=
        Nat.mul_le_mul_right _ inside.1
      rw [Nat.add_mul, Nat.one_mul] at row
      rw [placeOf_cons, count_cons]
      omega

theorem indexAt_placeOf {shape : Shape} {index : Index} (inside : shape.Within index) :
    shape.indexAt (shape.placeOf index) = index := by
  induction shape generalizing index with
  | nil => cases index with
    | nil => rfl
    | cons i rest => exact inside.elim
  | cons extent inner ih => cases index with
    | nil => exact inside.elim
    | cons i rest =>
      have below := placeOf_lt inside.2
      have some : 0 < count inner := Nat.zero_lt_of_lt below
      have row : (i * count inner + placeOf inner rest) / count inner = i := by
        rw [Nat.mul_comm, Nat.mul_add_div some, Nat.div_eq_of_lt below, Nat.add_zero]
      have column : (i * count inner + placeOf inner rest) % count inner = placeOf inner rest := by
        rw [Nat.mul_comm, Nat.mul_add_mod, Nat.mod_eq_of_lt below]
      rw [placeOf_cons, indexAt, row, column, ih inside.2]

theorem within_indexAt {shape : Shape} {place : Nat} (below : place < shape.count) :
    shape.Within (shape.indexAt place) := by
  induction shape generalizing place with
  | nil => trivial
  | cons extent inner ih =>
    rw [count_cons] at below
    have some : 0 < count inner := Nat.pos_of_lt_mul_left below
    exact ⟨(Nat.div_lt_iff_lt_mul some).mpr below, ih (Nat.mod_lt _ some)⟩

theorem placeOf_indexAt {shape : Shape} {place : Nat} (below : place < shape.count) :
    shape.placeOf (shape.indexAt place) = place := by
  induction shape generalizing place with
  | nil =>
    have only : place = 0 := by simpa [count] using below
    rw [only, placeOf_nil]
  | cons extent inner ih =>
    rw [count_cons] at below
    have some : 0 < count inner := Nat.pos_of_lt_mul_left below
    rw [indexAt, placeOf_cons, ih (Nat.mod_lt _ some), Nat.mul_comm, Nat.div_add_mod]

theorem placeOf_inj {shape : Shape} {i j : Index} (first : shape.Within i)
    (second : shape.Within j) (same : shape.placeOf i = shape.placeOf j) : i = j := by
  rw [← indexAt_placeOf first, same, indexAt_placeOf second]

/-- The enumeration has each index at its place. -/
theorem getElem?_indices {shape : Shape} {index : Index} (inside : shape.Within index) :
    shape.indices[shape.placeOf index]? = some index := by
  rw [indices_eq_positions, positions_eq_map_indexAt, List.getElem?_map,
    List.getElem?_range (placeOf_lt inside), Option.map_some, indexAt_placeOf inside]

theorem nodup_indices (shape : Shape) : shape.indices.Nodup := by
  rw [indices_eq_positions, positions_eq_map_indexAt]
  refine List.Nodup.map_on (fun i first j second same => ?_) List.nodup_range
  rw [← placeOf_indexAt (List.mem_range.mp first), same, placeOf_indexAt (List.mem_range.mp second)]

private theorem packedStep_contiguousStrides (shape : Shape) :
    packedStep shape shape.contiguousStrides = some shape.numel.toInt64 := by
  induction shape with
  | nil => rfl
  | cons extent inner ih =>
    rw [contiguousStrides, packedStep, ih]
    by_cases one : extent = 1
    · simp [one, numel_cons]
    · simp [one, numel_cons, Int64.mul_comm]

/-- Row-major strides leave no gaps. -/
theorem isContiguous_contiguousStrides (shape : Shape) :
    isContiguous shape shape.contiguousStrides = true := by
  rw [isContiguous, packedStep_contiguousStrides, Option.isSome_some]

theorem length_contiguousStrides (shape : Shape) :
    shape.contiguousStrides.length = shape.length := by
  induction shape with
  | nil => rfl
  | cons extent inner ih => rw [contiguousStrides, List.length_cons, ih, List.length_cons]

theorem packedStep_cons {extent : UInt64} {shape : Shape} {stride : Int64} {strides : Strides}
    {step : Int64} (packed : packedStep (extent :: shape) (stride :: strides) = some step) :
    ∃ expected, packedStep shape strides = some expected ∧
      ((extent = 1 ∧ step = expected) ∨
        (stride = expected ∧ step = expected * extent.toInt64)) := by
  rw [packedStep] at packed
  obtain ⟨expected, inner, rest⟩ := Option.bind_eq_some_iff.mp packed
  refine ⟨expected, inner, ?_⟩
  split at rest
  · next one => exact .inl ⟨one, (Option.some.inj rest).symm⟩
  · split at rest
    · next same => exact .inr ⟨same, (Option.some.inj rest).symm⟩
    · cases rest

/-- The step past axes without gaps counts their elements, and their indices are at their places. -/
theorem packedStep_spec {shape : Shape} {strides : Strides} {step : Int64}
    (rank : strides.length = shape.length) (packed : packedStep shape strides = some step) :
    step.toInt ≡ shape.count [ZMOD 2 ^ 64] ∧ ∀ index, shape.Within index →
      elementOffset strides index ≡ shape.placeOf index [ZMOD 2 ^ 64] := by
  -- the step of the axes seen so far counts their elements, modulo the word
  induction shape generalizing strides step with
  | nil =>
    have only : step = 1 := by simpa [packedStep, eq_comm] using packed
    cases List.length_eq_zero_iff.mp rank
    refine ⟨by rw [only]; exact Int.ModEq.refl _, fun index _ => ?_⟩
    rw [elementOffset_nil_left, placeOf_nil]
    exact Int.ModEq.refl _
  | cons extent inner ih => cases strides with
    | nil => cases rank
    | cons stride strides =>
      obtain ⟨expected, below, cases⟩ := packedStep_cons packed
      obtain ⟨count, offsets⟩ := ih (Nat.succ.inj rank) below
      rcases cases with ⟨one, same⟩ | ⟨same, grown⟩
      · refine ⟨by simpa [one, same, count_cons] using count, fun index inside => ?_⟩
        cases index with
        | nil => exact inside.elim
        | cons i rest =>
          -- the only position on an axis of extent one makes its stride irrelevant
          have first : i = 0 := by simpa [one] using inside.1
          rw [elementOffset_cons, placeOf_cons, first]
          simpa using offsets rest inside.2
      · constructor
        · rw [grown, count_cons, Nat.mul_comm]
          refine (toInt_mul_modEq _ _).trans ?_
          push_cast
          exact count.mul (toInt_toInt64_modEq extent)
        · intro index inside
          cases index with
          | nil => exact inside.elim
          | cons i rest =>
            rw [elementOffset_cons, placeOf_cons, same]
            push_cast
            exact (count.mul_left _).add (offsets rest inside.2)

/-- Strides without gaps put every index at its place. -/
theorem offset_eq_place {shape : Shape} {strides : Strides}
    (rank : strides.length = shape.length) (packed : isContiguous shape strides = true)
    {index : Index} (inside : shape.Within index) :
    elementOffset strides index ≡ shape.placeOf index [ZMOD 2 ^ 64] := by
  obtain ⟨step, found⟩ := Option.isSome_iff_exists.mp packed
  exact (packedStep_spec rank found).2 index inside

theorem offset_contiguousStrides {shape : Shape} {index : Index} (inside : shape.Within index) :
    elementOffset shape.contiguousStrides index ≡ shape.placeOf index [ZMOD 2 ^ 64] :=
  offset_eq_place (length_contiguousStrides shape) (isContiguous_contiguousStrides shape) inside

end Shape

end QuantLinear
