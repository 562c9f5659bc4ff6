import QuantLinear.Proofs.RowStride

/-!
Which strides are without gaps.

The check passes over axes of extent one and compares every other stride with the number of elements
inside it. On shapes with elements that is the same as to say that each index lies at its place of
the row-major order (`isContiguous_iff_places`): an axis of more than one position shows its stride at
the second one, and an axis of one position never uses it. As long as the elements can be counted by a
signed word, it makes no difference whether offsets wrap.
-/

namespace QuantLinear.Shape

/-- An axis takes no elements away. -/
private theorem count_inner_le {extent : UInt64} (inner : Shape) (filled : extent ≠ 0) :
    inner.count ≤ count (extent :: inner) := by
  rw [count_cons]
  exact Nat.le_mul_of_pos_left _ (toNat_pos_of_ne_zero filled)

/-- Strides without gaps put every index at its place, and not only modulo the word, where the
elements can be counted by a signed one. -/
private theorem offset_eq_place_exact {shape : Shape} {strides : Strides}
    (rank : strides.length = shape.length) (full : 0 ∉ shape) (fits : shape.count < 2 ^ 63)
    {step : Int64} (packed : packedStep shape strides = some step) {index : Index}
    (inside : shape.Within index) : elementOffset strides index = shape.placeOf index := by
  -- by induction on the axes: the stride of each one is the exact count of the elements inside it,
  -- unless its only position is the first
  induction shape generalizing strides step index with
  | nil =>
    cases List.length_eq_zero_iff.mp rank
    rw [elementOffset_nil_left, placeOf_nil, Nat.cast_zero]
  | cons extent inner ih => cases strides with
    | nil => cases rank
    | cons stride strides =>
      obtain ⟨here, later⟩ := not_or.mp fun either => full (List.mem_cons.mpr either)
      have small := Nat.lt_of_le_of_lt (count_inner_le inner (Ne.symm here)) fits
      obtain ⟨expected, below, cases⟩ := packedStep_cons packed
      obtain ⟨i, rest, rfl, bound, inside⟩ := exists_of_within_cons inside
      have tail := ih (Nat.succ.inj rank) later small below inside
      rw [elementOffset_cons, placeOf_cons, tail]
      push_cast
      rcases cases with ⟨one, -⟩ | ⟨same, -⟩
      · have first : i = 0 := by simpa [one] using bound
        simp [first]
      · have counted : expected.toInt = Shape.count inner :=
          toInt_eq_of_modEq (by omega) (by exact_mod_cast small)
            (packedStep_spec (Nat.succ.inj rank) below).1
        rw [same, counted]

/-- Where all indices are at their places, modulo the word, the strides leave no gaps. -/
private theorem packedStep_of_places {shape : Shape} {strides : Strides}
    (rank : strides.length = shape.length) (full : shape.count ≠ 0)
    (placed : ∀ index, shape.Within index →
      elementOffset strides index ≡ shape.placeOf index [ZMOD 2 ^ 64]) :
    ∃ step, packedStep shape strides = some step := by
  induction shape generalizing strides with
  | nil => exact ⟨1, by simp [packedStep]⟩
  | cons extent inner ih => cases strides with
    | nil => cases rank
    | cons stride strides =>
      have equal (index : Index) (inside : Within (extent :: inner) index) :
          elementOffset (stride :: strides) index ≡
            placeOf (extent :: inner) index * 1 [ZMOD 2 ^ 64] := by
        rw [mul_one]
        exact placed index inside
      have parts := full
      rw [count_cons, Nat.mul_ne_zero_iff] at parts
      obtain ⟨expected, below⟩ := ih (Nat.succ.inj rank) parts.2 fun rest inside => by
        have tail := offsets_inner (Nat.pos_of_ne_zero parts.1) equal inside
        rwa [mul_one] at tail
      rw [packedStep, below]
      by_cases one : extent = 1
      · exact ⟨expected, by simp [one]⟩
      · have counted := (packedStep_spec (Nat.succ.inj rank) below).1
        have stepped := stride_of_offsets one full equal
        rw [one_mul] at stepped
        have same : stride = expected := Int64.toInt_inj.mp
          (toInt_eq_of_modEq expected.le_toInt expected.toInt_lt (stepped.trans counted.symm))
        exact ⟨expected * extent.toInt64, by simp [one, same]⟩

/-- Strides are without gaps exactly where they put each index at its place of the row-major order,
whether offsets wrap or not; row-major strides always are. -/
theorem isContiguous_iff_places (shape : Shape) :
    (∀ strides : Strides, strides.length = shape.length → 0 ∉ shape → shape.count < 2 ^ 63 →
      (isContiguous shape strides = true ↔ ∀ index, shape.Within index →
        elementOffset strides index = shape.placeOf index) ∧
      (isContiguous shape strides = true ↔ ∀ index, shape.Within index →
        elementOffset strides index ≡ shape.placeOf index [ZMOD 2 ^ 64])) ∧
    (∀ index, shape.Within index → shape.indices[shape.placeOf index]? = some index) ∧
    isContiguous shape shape.contiguousStrides = true := by
  refine ⟨fun strides rank full fits => ?_, fun _ => getElem?_indices,
    isContiguous_contiguousStrides shape⟩
  have exact_of_packed (packed : isContiguous shape strides = true) (index : Index)
      (inside : shape.Within index) : elementOffset strides index = shape.placeOf index := by
    obtain ⟨step, found⟩ := Option.isSome_iff_exists.mp packed
    exact offset_eq_place_exact rank full fits found inside
  have packed_of_placed (placed : ∀ index, shape.Within index →
      elementOffset strides index ≡ shape.placeOf index [ZMOD 2 ^ 64]) :
      isContiguous shape strides = true :=
    Option.isSome_iff_exists.mpr (packedStep_of_places rank (count_pos full).ne' placed)
  constructor
  · exact ⟨exact_of_packed, fun equal => packed_of_placed fun index inside => by
      rw [equal index inside]⟩
  · exact ⟨fun packed _ inside => offset_eq_place rank packed inside, packed_of_placed⟩

/-- An axis of one position may have any stride; two axes in the other order have gaps. -/
theorem isContiguous_iff_places_threeAxes :
    0 ∉ ([2, 1, 3] : Shape) ∧ count [2, 1, 3] < 2 ^ 63 ∧
    (∀ index, Within [2, 1, 3] index →
      elementOffset [3, -7, 1] index = placeOf [2, 1, 3] index) ∧
    ¬∀ index, Within [2, 3] index →
      elementOffset [1, 2] index ≡ placeOf [2, 3] index [ZMOD 2 ^ 64] := by
  have dense : isContiguous [2, 1, 3] [3, -7, 1] = true := rfl
  have swapped : ¬isContiguous [2, 3] [1, 2] = true := by decide
  obtain ⟨three, -⟩ := isContiguous_iff_places [2, 1, 3]
  obtain ⟨two, -⟩ := isContiguous_iff_places [2, 3]
  refine ⟨by decide, by decide, (three [3, -7, 1] rfl (by decide) (by decide)).1.mp dense, ?_⟩
  exact fun placed => swapped ((two [1, 2] rfl (by decide) (by decide)).2.mpr placed)

end QuantLinear.Shape
