import QuantLinear.Proofs.Layout

/-!
Normalized operands against the tensors they were made from.

An activation becomes a matrix with one row for each leading index, in row-major order
(`NormalRows`), and a weight becomes its transpose (`NormalColumns`). Both show the words of their
tensor, and take a new storage exactly where no view of the old one has the layout.
-/

namespace QuantLinear

/-- Whether the step of each leading axis, the distance to the axis outside, is a signed 64-bit word.
Where no axis outside has a second position there is no such distance. -/
def View.StepsFit (v : View) : Prop :=
  ∀ axis < v.rank - 1, ∀ outer < axis, v.extent outer ≠ 1 →
    -2 ^ 63 ≤ (v.stride axis).toInt * (v.extent axis).toNat ∧
      (v.stride axis).toInt * (v.extent axis).toNat < 2 ^ 63

namespace View

instance (v : View) : Decidable v.StepsFit :=
  inferInstanceAs (Decidable (∀ axis < v.rank - 1, ∀ outer < axis, _ → _ ∧ _))

theorem StepsFit.steps {v : View} {lead : Shape} {columns : UInt64} (fit : v.StepsFit)
    (shape : v.shape = lead ++ [columns]) :
    ∀ axis < lead.length, ∀ outer < axis, lead.getD outer 0 ≠ 1 → StepAt 0 lead v.strides axis := by
  intro axis below outer outside many
  have last : v.rank - 1 = lead.length := by simp [View.rank, shape]
  have extent {axis : Nat} (inLead : axis < lead.length) : v.extent axis = lead.getD axis 0 := by
    simp [View.extent, shape, List.getElem?_append_left inLead]
  have fits := fit axis (by rwa [last]) outer outside (by rwa [extent (outside.trans below)])
  rw [extent below] at fits
  exact Int.modEq_zero_iff.mpr (toInt_eq_of_modEq fits.1 fits.2 (toInt_step_modEq _ _))

end View

/-- A tensor that is there has its operand in a new storage exactly where it was copied. -/
private theorem Placement.fresh_iff {before : Machine} {source : Tensor} {operand : Operand}
    {direct : Prop}
    (placed : Placement before source operand direct) (stored : source.storage < before.memory.next)
    (packed : source.isContiguous = true → direct) :
    (operand.copied = true ↔ before.memory.next ≤ operand.tensor.storage) ∧
      (operand.copied = false ↔ operand.tensor.storage = source.storage) ∧
      (operand.tensor.storage = source.storage ↔ direct) := by
  have view : operand.copied = false ↔ direct := by
    rw [← Bool.not_eq_true, placed.copied, not_not]
  by_cases shows : direct
  · have same := placed.shared shows
    exact ⟨iff_of_false (by simp [view.mpr shows]) (by omega), iff_of_true (view.mpr shows) same,
      iff_of_true same shows⟩
  · have new := placed.new shows fun tidy => shows (packed tidy)
    have copied := placed.copied.mpr shows
    exact ⟨iff_of_true copied new, iff_of_false (by simp [copied]) (by omega),
      iff_of_false (by omega) shows⟩

/-- An activation as a matrix: a row for each leading index, in the row-major order of these. -/
structure NormalRows (before : Machine) (activation : Tensor) (lead : Shape) (columns : UInt64)
    (operand : Operand) (after : Machine) : Prop where
  follows : before.Follows [] after
  kind : operand.tensor.kind = activation.kind
  device : operand.tensor.device = activation.device
  batch : ∃ batch, operand.tensor.shape = [batch, columns] ∧ batch.toNat = lead.count
  layout : operand.tensor.isRowMajor = true
  words : ∀ row < lead.count, ∀ column < columns.toNat,
    after.memory.load operand.tensor.toView [row, column] =
      before.memory.load activation.toView (lead.indexAt row ++ [column])
  copied : operand.copied = true ↔ before.memory.next ≤ operand.tensor.storage
  shared : operand.copied = false ↔ operand.tensor.storage = activation.storage
  /-- Only rows that do not lie at equal distances are copied. -/
  distance : lead.count ≠ 0 → activation.StepsFit → (operand.copied = false ↔
    ∃ distance : Int, ∀ index, lead.Within index → ∀ column < columns.toNat,
      elementOffset activation.strides (index ++ [column]) =
        distance * lead.placeOf index + column)

/-- A weight as the matrix of its columns, and that matrix permuted back. -/
structure NormalColumns (before : Machine) (weight : Tensor) (rows columns : UInt64)
    (operand : Operand) (after : Machine) : Prop where
  follows : before.Follows [] after
  kind : operand.tensor.kind = weight.kind
  device : operand.tensor.device = weight.device
  shape : operand.tensor.shape = [columns, rows]
  layout : operand.tensor.isColumnMajor = true
  words : ∀ row < rows.toNat, ∀ column < columns.toNat,
    after.memory.load operand.tensor.toView [column, row] =
      before.memory.load weight.toView [row, column]
  back : ∃ back, operand.tensor.toView.permute [1, 0] = .ok back ∧ back.shape = [rows, columns] ∧
    ∀ row < rows.toNat, ∀ column < columns.toNat,
      after.memory.load back [row, column] = before.memory.load weight.toView [row, column]
  copied : operand.copied = true ↔ before.memory.next ≤ operand.tensor.storage
  shared : operand.copied = false ↔ operand.tensor.storage = weight.storage
  /-- Only rows with gaps between their words are copied. -/
  dense : operand.tensor.storage = weight.storage ↔ columns ≤ 1 ∨ weight.stride 1 = 1

section Activation

variable {machine : Machine} {activation : Tensor} {lead : Shape} {columns : UInt64}

/-- A row stride is found exactly where the rows lie at equal distances. -/
private theorem rowStride_iff_distance (there : machine.memory.Has activation.toView)
    (shape : activation.shape = lead ++ [columns]) (wide : columns ≠ 0) (full : lead.count ≠ 0)
    (fit : activation.StepsFit) : (∃ row, activation.toView.rowStride? = some row) ↔
      ∃ distance : Int, ∀ index, lead.Within index → ∀ column < columns.toNat,
        elementOffset activation.strides (index ++ [column]) =
          distance * lead.placeOf index + column := by
  constructor
  · rintro ⟨row, found⟩
    refine ⟨row.toInt, fun index inside column below => ?_⟩
    rw [mul_comm]
    exact Int.modEq_zero_iff.mp (View.rowStride_spec shape there.rank (fit.steps shape) found
      inside below)
  · rintro ⟨distance, equal⟩
    have some : activation.shape.count ≠ 0 := by
      rw [shape, Shape.count_append]
      exact Nat.mul_ne_zero full (Nat.ne_of_gt (toNat_pos_of_ne_zero wide))
    have placed (index : Index) (inside : lead.Within index) (p : Nat) (below : p < columns.toNat) :
        elementOffset activation.strides (index ++ [p]) ≡
          lead.placeOf index * distance + p [ZMOD 2 ^ 64] := by
      rw [equal index inside p below, mul_comm]
    exact View.exists_rowStride_of_offsets shape there.rank some placed

private theorem normalizedActivation_returns (there : machine.memory.Has activation.toView)
    (serves : machine.Serves activation.device) (shape : activation.shape = lead ++ [columns])
    (wide : columns ≠ 0) (count : activation.shape.count < 2 ^ 64)
    (bytes : activation.toView.rowStride? = none →
      activation.shape.count * activation.kind.size < 2 ^ 64) :
    ∃ operand after, normalizedActivation (some activation) machine = .ok operand after ∧
      NormalRows machine activation lead columns operand after := by
  obtain ⟨operand, after, returned, follows, kind, device, placed, -, ready⟩ :=
    (ends_normalizedActivation activation machine).returned_of fun _ _ failed =>
      failed.2 serves lead columns shape wide count
  have room : operand.copied = true → activation.shape.count * activation.kind.size < 2 ^ 64 :=
    fun copied => bytes (Option.eq_none_iff_forall_ne_some.mpr fun row found =>
      placed.copied.mp copied ⟨row, found⟩)
  have rows := ready lead columns shape wide count room
  have fresh := placed.fresh_iff there.stored fun packed =>
    View.exists_rowStride_of_isContiguous shape there.rank packed
  refine ⟨operand, after, returned, {
    follows, kind, device
    batch := rows.batch
    layout := rows.layout
    words := fun row inRows column inColumns => ?_
    copied := fresh.1
    shared := fresh.2.1
    distance := fun full fit => (fresh.2.1.trans fresh.2.2).trans
      (rowStride_iff_distance there shape wide full fit) }⟩
  -- the leading index of a row is the one at its place
  have words := rows.words there _ column (Shape.within_indexAt inRows) inColumns
  rwa [Shape.placeOf_indexAt inRows] at words

end Activation

section Weight

variable {machine : Machine} {weight : Tensor} {rows columns : UInt64}

private theorem normalizedWeight_returns (there : machine.memory.Has weight.toView)
    (serves : machine.Serves weight.device) (shape : weight.shape = [rows, columns])
    (bytes : ¬(columns ≤ 1 ∨ weight.stride 1 = 1) →
      weight.shape.count * weight.kind.size < 2 ^ 64) :
    ∃ operand after, normalizedWeight (some weight) machine = .ok operand after ∧
      NormalColumns machine weight rows columns operand after := by
  obtain ⟨operand, after, returned, follows, kind, device, -, placed, held⟩ :=
    (ends_normalizedWeight weight machine).returned_of fun _ _ failed =>
      failed.2 serves rows columns shape
  obtain ⟨arrived, ready⟩ := held there
  rw [(View.extent_pair shape).2] at placed
  have arranged := ready rows columns shape fun copied => bytes (placed.copied.mp copied)
  have fresh := placed.fresh_iff there.stored fun packed => by
    rw [← (View.extent_pair shape).2]
    exact there.stride_of_isContiguous shape packed
  have extents := View.extent_pair arranged.shape
  refine ⟨operand, after, returned, {
    follows, kind, device
    shape := arranged.shape
    layout := arranged.layout
    words := arranged.words
    back := ⟨_, View.permute_transposed (by rw [View.rank, arranged.shape]; rfl), ?_, ?_⟩
    copied := fresh.1
    shared := fresh.2.1
    dense := fresh.2.2 }⟩
  · rw [View.transposed, extents.1, extents.2]
  · intro row inRows column inColumns
    rw [← arranged.words row inRows column inColumns, View.transposed]
    exact after.memory.load_transposed (arrived.strides_pair arranged.shape) column row

end Weight

/-- Activations and weights are normalized without a change of their words, and copied only where no
view has the layout. -/
theorem normalized_operands (machine : Machine) :
    (∀ activation lead columns, machine.memory.Has activation.toView →
      machine.Serves activation.device → activation.shape = lead ++ [columns] → columns ≠ 0 →
      activation.shape.count < 2 ^ 64 →
      (activation.toView.rowStride? = none →
        activation.shape.count * activation.kind.size < 2 ^ 64) →
      ∃ operand after, normalizedActivation (some activation) machine = .ok operand after ∧
        NormalRows machine activation lead columns operand after) ∧
    ∀ weight rows columns, machine.memory.Has weight.toView → machine.Serves weight.device →
      weight.shape = [rows, columns] →
      (¬(columns ≤ 1 ∨ weight.stride 1 = 1) → weight.shape.count * weight.kind.size < 2 ^ 64) →
      ∃ operand after, normalizedWeight (some weight) machine = .ok operand after ∧
        NormalColumns machine weight rows columns operand after :=
  ⟨fun _ _ _ there serves shape wide count bytes =>
      normalizedActivation_returns there serves shape wide count bytes,
    fun _ _ _ there serves shape bytes => normalizedWeight_returns there serves shape bytes⟩

/-- A machine with the bytes from 0 to 7. -/
def Machine.withEightBytes : Machine :=
  { Machine.initial with memory := Memory.empty.allocate #[0, 1, 2, 3, 4, 5, 6, 7], handles := 2 }

/-- Two rows of two bytes with a byte between them, and an axis of extent one in the middle. -/
def paddedRows : Tensor where
  kind := .byte
  shape := [2, 1, 2]
  strides := [3, 99, 1]
  storage := 0
  offset := 1
  device := .host
  handle := 0

/-- Two rows of three bytes, with the rows side by side. -/
def columnsFirst : Tensor where
  kind := .byte
  shape := [2, 3]
  strides := [1, 2]
  storage := 0
  offset := 2
  device := .host
  handle := 1

/-- The padded rows are read where they are, and the other matrix is copied. -/
theorem normalized_operands_eightBytes : ∃ x w after later,
    normalizedActivation (some paddedRows) .withEightBytes = .ok x after ∧ x.copied = false ∧
      after.memory.load x.tensor.toView [1, 0] = 4 ∧
    normalizedWeight (some columnsFirst) .withEightBytes = .ok w later ∧ w.copied = true ∧
      later.memory.load w.tensor.toView [2, 1] = 7 := by
  have serves : Machine.withEightBytes.Serves .host := ⟨⟨rfl, fun _ => rfl⟩, rfl⟩
  obtain ⟨activations, weights⟩ := normalized_operands .withEightBytes
  obtain ⟨x, after, returned, rows⟩ := activations paddedRows [2, 1] 2 ⟨rfl, by decide⟩ serves rfl
    (by decide) (by decide) fun _ => by decide
  obtain ⟨w, later, transposed, columns⟩ := weights columnsFirst 2 3 ⟨rfl, by decide⟩ serves rfl
    fun _ => by decide
  have equal : ∃ distance : Int, ∀ index, Shape.Within [2, 1] index → ∀ column < (2 : UInt64).toNat,
      elementOffset paddedRows.strides (index ++ [column]) =
        distance * Shape.placeOf [2, 1] index + column := by
    refine ⟨3, fun index inside => ?_⟩
    have all : ∀ index ∈ Shape.indices [2, 1], ∀ column < (2 : UInt64).toNat,
      elementOffset paddedRows.strides (index ++ [column]) =
        3 * Shape.placeOf [2, 1] index + column := by decide
    exact all index ((Shape.mem_indices _ _).mpr inside)
  have gaps : ¬w.copied = false := by
    rw [columns.shared, columns.dense]
    decide
  refine ⟨x, w, after, later, returned, (rows.distance (by decide) (by decide)).mpr equal, ?_,
    transposed, ?_, ?_⟩
  · exact rows.words 1 (by decide) 0 (by decide)
  · exact Bool.eq_true_of_not_eq_false gaps
  · exact columns.words 1 (by decide) 2 (by decide)

end QuantLinear
