import QuantLinear.Proofs.Copies
import QuantLinear.Proofs.RowStride

/-!
Operands show the elements of the tensors they were made from.

Rows of an activation are numbered by the place of their leading index. Where the leading axes fold
into one the rows are read where they are; else the activation is copied into row-major order, where
the same numbering holds.
-/

namespace QuantLinear

namespace View

/-- A view `w` whose elements are those of `v` at the selected indices. -/
structure Selects (w v : View) (select : Index → Index) : Prop where
  kind : w.kind = v.kind
  device : w.device = v.device
  storage : w.storage = v.storage
  rank : w.strides.length = w.shape.length
  inside : ∀ index, w.shape.Within index → v.shape.Within (select index)
  address : ∀ index, w.shape.Within index → w.address index = v.address (select index)

/-- Another shape without gaps meets the elements in the same order. -/
theorem selects_reshape {v w : View} {shape : Shape} (rank : v.strides.length = v.shape.length)
    (packed : v.isContiguous = true) (count : shape.count = v.shape.count)
    (view : w = { v with shape := shape, strides := shape.contiguousStrides }) :
    w.Selects v fun index => v.shape.indexAt (shape.placeOf index) := by
  subst view
  have below (index : Index) (inside : shape.Within index) :
      shape.placeOf index < v.shape.count := by
    rw [← count]
    exact Shape.placeOf_lt inside
  refine ⟨rfl, rfl, rfl, Shape.length_contiguousStrides shape,
    fun index inside => Shape.within_indexAt (below index inside), fun index inside => ?_⟩
  -- in both views each place of the row-major order has one address
  have target := Shape.offset_contiguousStrides inside
  have source := Shape.offset_eq_place rank packed (Shape.within_indexAt (below index inside))
  rw [Shape.placeOf_indexAt (below index inside)] at source
  exact v.addressAt_congr (target.trans source.symm)

end View

namespace Memory

theorem load_of_selects {mem : Memory} {v w : View} {select : Index → Index}
    (selects : w.Selects v select) {index : Index} (inside : w.shape.Within index) :
    mem.load w index = mem.load v (select index) := by
  rw [load, load, wordAt, wordAt, selects.storage, selects.kind, selects.address index inside]

/-- Rows read through a matrix of rows. -/
private theorem load_restride (mem : Memory) {v : View} {lead : Shape} {columns batch : UInt64}
    {row : Int64}
    (shape : v.shape = lead ++ [columns]) (rank : v.strides.length = v.shape.length)
    (found : v.rowStride? = some row) {index : Index} {p : Nat} (inside : lead.Within index)
    (below : p < columns.toNat) :
    mem.load { v with shape := [batch, columns], strides := [row, 1] } [lead.placeOf index, p] =
      mem.load v (index ++ [p]) := by
  have offset : elementOffset [row, 1] [lead.placeOf index, p] =
      lead.placeOf index * row.toInt + p := by
    simp [elementOffset]
  have same := View.rowStride_spec shape rank (fun axis _ _ _ _ => View.stepAt_word _ _ axis) found
    inside below
  have address := v.addressAt_congr same
  rw [← offset] at address
  rw [load, load, View.address, View.address, address]
  rfl

/-- Rows read through another shape of a view without gaps. -/
theorem load_reshape (mem : Memory) {v : View} {lead : Shape} {columns batch : UInt64}
    (there : mem.Has v) (packed : v.isContiguous = true) (shape : v.shape = lead ++ [columns])
    (rows : lead.count = batch.toNat) {index : Index} {p : Nat} (inside : lead.Within index)
    (below : p < columns.toNat) :
    mem.load { v with shape := [batch, columns], strides := Shape.contiguousStrides [batch, columns] }
        [lead.placeOf index, p] =
      mem.load v (index ++ [p]) := by
  have within : v.shape.Within (index ++ [p]) := by
    rw [shape]
    exact Shape.within_append inside below
  have row : lead.placeOf index < batch.toNat := by
    rw [← rows]
    exact Shape.placeOf_lt inside
  have count : Shape.count [batch, columns] = v.shape.count := by
    rw [shape, Shape.count_append, Shape.count_pair, rows]
  have places : Shape.placeOf [batch, columns] [lead.placeOf index, p] =
      v.shape.placeOf (index ++ [p]) := by
    rw [shape, Shape.placeOf_append inside]
    simp [Shape.placeOf, Shape.count_cons]
  rw [load_of_selects (View.selects_reshape there.rank packed count rfl)
    (Shape.within_of_lt row below), places, Shape.indexAt_placeOf within]

/-- The transposed reading of a matrix. -/
theorem load_transposed (mem : Memory) {v : View} {rows columns : UInt64} {outer inner : Int64}
    (strides : v.strides = [outer, inner]) (row column : Nat) :
    mem.load { v with shape := [columns, rows], strides := [inner, outer] } [column, row] =
      mem.load v [row, column] := by
  have offset : elementOffset [inner, outer] [column, row] =
      elementOffset v.strides [row, column] := by
    rw [strides]
    simp [elementOffset, add_comm]
  rw [load, load, View.address, View.address, ← offset]
  rfl

/-- One row read again for every row of a matrix. -/
theorem load_repeated (mem : Memory) {v : View} {rows columns : UInt64} {stride : Int64}
    (strides : v.strides = [stride]) (row column : Nat) :
    mem.load { v with shape := [rows, columns], strides := [0, stride] } [row, column] =
      mem.load v [column] := by
  have offset : elementOffset [0, stride] [row, column] = elementOffset v.strides [column] := by
    rw [strides]
    simp [elementOffset]
  rw [load, load, View.address, View.address, ← offset]
  rfl

end Memory

open QuantLinear.Action

/-- A copy without gaps shows the words of its source as soon as their bytes can be counted. -/
private theorem Copied.words_of_bytes {before after : Machine} {source copy : Tensor}
    (copied : Copied before source copy after)
    (same : source.isContiguous = true → copy = source ∧ after = before)
    (there : before.memory.Has source.toView)
    (bytes : source.shape.count * source.kind.size < 2 ^ 64) {index : Index}
    (inside : source.shape.Within index) :
    after.memory.load copy.toView index = before.memory.load source.toView index := by
  by_cases packed : source.isContiguous = true
  · obtain ⟨rfl, rfl⟩ := same packed
    rfl
  · exact copied.words there ⟨bytes, fun tidy => absurd tidy packed⟩ index inside

/-- An activation made ready between two machines: its rows are numbered by the places of their
leading indices. -/
structure ReadyRows (before : Machine) (activation x : Tensor) (lead : Shape) (columns : UInt64)
    (after : Machine) : Prop where
  batch : ∃ batch, x.shape = [batch, columns] ∧ batch.toNat = lead.count
  layout : x.isRowMajor = true
  words : before.memory.Has activation.toView → ∀ index p, lead.Within index → p < columns.toNat →
    after.memory.load x.toView [lead.placeOf index, p] =
      before.memory.load activation.toView (index ++ [p])

theorem ends_share (v : View) (machine : Machine) :
    (share v).Ends machine
      (fun tensor after => machine.Follows [] after ∧ tensor.toView = v ∧
        after.memory = machine.memory)
      (fun _ _ => False) := by
  simp only [share, ends_bind, ends_get, ends_set, ends_pure, and_true]
  exact ⟨rfl, rfl, rfl, rfl, rfl, rfl, .refl _ _⟩

/-- A view is read under another shape where it has no gaps and as many elements. -/
theorem View.reshape_eq_ok {v w : View} {shape : Shape} :
    v.reshape shape = .ok w ↔ (v.isContiguous = true ∧ shape.numel = v.numel) ∧
      w = { v with shape := shape, strides := shape.contiguousStrides } := by
  simp only [View.reshape, bind_eq_ok, require_eq_ok, pure_eq_ok, beq_iff_eq]
  constructor
  · rintro ⟨-, count, -, packed, same⟩
    exact ⟨⟨packed, count⟩, same.symm⟩
  · rintro ⟨⟨packed, count⟩, same⟩
    exact ⟨(), count, (), packed, same.symm⟩

private theorem View.extent_last {v : View} {lead : Shape} {columns : UInt64}
    (shape : v.shape = lead ++ [columns]) : v.extent (v.rank - 1) = columns := by
  simp [View.extent, View.rank, shape]

private theorem View.toNat_batch {v : View} {lead : Shape} {columns : UInt64}
    (shape : v.shape = lead ++ [columns]) (some : columns ≠ 0) (count : v.shape.count < 2 ^ 64) :
    (v.numel / columns).toNat = lead.count := by
  rw [UInt64.toNat_div, View.numel, Shape.toNat_numel_of_lt count, shape, Shape.count_append,
    Nat.mul_div_cancel _ (toNat_pos_of_ne_zero some)]

/-- The matrix of rows has as many elements as the activation. -/
private theorem View.numel_batch {v : View} {lead : Shape} {columns : UInt64}
    (shape : v.shape = lead ++ [columns]) (some : columns ≠ 0) (count : v.shape.count < 2 ^ 64) :
    Shape.numel [v.numel / columns, columns] = v.numel := by
  have same : Shape.count [v.numel / columns, columns] = v.shape.count := by
    simp only [Shape.count_cons, View.toNat_batch shape some count, shape, Shape.count_append]
    simp
  apply UInt64.toNat_inj.mp
  rw [Shape.toNat_numel_of_lt (by rwa [same]), same, View.numel, Shape.toNat_numel_of_lt count]

/-- Where an operand lies: with its source where a view can show it directly, and else, unless the
source had no gaps to begin with, in a new storage. -/
structure Placement (before : Machine) (source : Tensor) (operand : Operand) (direct : Prop) :
    Prop where
  copied : operand.copied = true ↔ ¬direct
  shared : direct → operand.tensor.storage = source.storage
  new : ¬direct → ¬source.isContiguous = true → before.memory.next ≤ operand.tensor.storage

section Rows

variable {before middle after : Machine} {activation dense x : Tensor} {lead : Shape} {columns : UInt64}
  (shape : activation.shape = lead ++ [columns]) (wide : columns ≠ 0)
  (count : activation.shape.count < 2 ^ 64)

include shape wide count

/-- Rows at equal distances are read where they are. -/
private theorem ReadyRows.of_restride {row : Int64} (found : activation.toView.rowStride? = some row)
    (view : x.toView = { activation.toView with
      shape := [activation.numel / columns, columns], strides := [row, 1] })
    (memory : after.memory = before.memory) : ReadyRows before activation x lead columns after := by
  refine ⟨⟨activation.numel / columns, by rw [view], View.toNat_batch shape wide count⟩, ?_,
    fun there index p inside below => ?_⟩
  · rw [view]
    exact Bool.or_true _
  · rw [view, memory]
    exact before.memory.load_restride shape there.rank found inside below

/-- Rows of a copy without gaps are those of the activation. -/
private theorem ReadyRows.of_reshape (copied : Copied before activation dense middle)
    (packed : dense.isContiguous = true)
    (view : x.toView = { dense.toView with
      shape := [activation.numel / columns, columns]
      strides := Shape.contiguousStrides [activation.numel / columns, columns] })
    (memory : after.memory = middle.memory)
    (words : before.memory.Has activation.toView → ∀ index, activation.shape.Within index →
      middle.memory.load dense.toView index = before.memory.load activation.toView index) :
    ReadyRows before activation x lead columns after := by
  have batch := View.toNat_batch shape wide count
  refine ⟨⟨activation.numel / columns, by rw [view], batch⟩, ?_, fun there index p inside below => ?_⟩
  · rw [view]
    exact Bool.or_true _
  · rw [view, memory, middle.memory.load_reshape (copied.has there) packed (copied.shape.trans shape)
      batch.symm inside below]
    apply words there
    rw [shape]
    exact Shape.within_append inside below

end Rows

theorem ends_normalizedActivation (activation : Tensor) (machine : Machine) :
    (normalizedActivation (some activation)).Ends machine
      (fun operand after => machine.Follows [] after ∧ operand.tensor.kind = activation.kind ∧
        operand.tensor.device = activation.device ∧
        Placement machine activation operand (∃ row, activation.toView.rowStride? = some row) ∧
        (machine.memory.Has activation.toView → after.memory.Has operand.tensor.toView) ∧
        ∀ lead columns, activation.shape = lead ++ [columns] → columns ≠ 0 →
          activation.shape.count < 2 ^ 64 →
          (operand.copied = true → activation.shape.count * activation.kind.size < 2 ^ 64) →
          ReadyRows machine activation operand.tensor lead columns after)
      (fun _ after => machine.Follows [] after ∧ (machine.Serves activation.device →
        ∀ lead columns, activation.shape = lead ++ [columns] → columns ≠ 0 →
          ¬activation.shape.count < 2 ^ 64)) := by
  simp only [normalizedActivation, ends_bind, ends_defined, ends_require]
  refine ⟨fun _ => ?_, fun scalar => ⟨.refl _ _, fun _ lead columns shape _ _ => ?_⟩⟩
  · cases found : activation.toView.rowStride? with
    | some row =>
      -- the leading axes fold, and the activation itself is read as a matrix
      have plain : ∀ batch columns, activation.toView.restride [batch, columns] [row, 1] =
          .ok { activation.toView with shape := [batch, columns], strides := [row, 1] } :=
        fun _ _ => rfl
      simp only [plain, ends_bind, ends_ok, ends_pure]
      refine (ends_share _ machine).mono (fun x after shared => ?_) fun _ _ none => none.elim
      obtain ⟨followed, view, memory⟩ := shared
      refine ⟨followed, by rw [view], by rw [view], ⟨by simp, fun _ => by rw [view], by simp⟩,
        fun there => ?_, fun lead columns shape wide count _ => ?_⟩
      · rw [view, memory]
        exact ⟨rfl, there.stored⟩
      · rw [View.extent_last shape, if_neg wide] at view
        exact .of_restride shape wide count found view memory
    | none =>
      -- they do not, so the rows are laid out anew
      simp only [ends_bind]
      refine (ends_contiguousTensor activation machine).mono (fun dense middle made => ?_)
        fun _ _ failed => ⟨failed.1, fun serves => absurd serves failed.2⟩
      obtain ⟨copied, device, packed, same, new⟩ := made
      rw [ends_lift]
      refine ⟨fun view made => ?_, fun fault failed => ⟨copied.follows, fun _ lead columns shape wide
        count => ?_⟩⟩
      · cases (View.reshape_eq_ok.mp made).2
        refine (ends_share _ middle).mono (fun x after shared => ?_) fun _ _ none => none.elim
        obtain ⟨followed, view, memory⟩ := shared
        refine ⟨copied.follows.trans followed, by rw [view, ← copied.kind], by rw [view, ← device],
          ⟨by simp, fun direct => by simp at direct, fun _ gaps => by rw [view]; exact new gaps⟩,
          fun there => ?_, fun lead columns shape wide count bytes => ?_⟩
        · rw [view, memory]
          exact ⟨Shape.length_contiguousStrides _, (copied.has there).stored⟩
        · rw [View.extent_last shape, if_neg wide] at view
          exact .of_reshape shape wide count copied packed view memory fun there index inside =>
            copied.words_of_bytes same there (bytes rfl) inside
      · -- the matrix has as many elements, so that reshaping cannot fail
        have same : Shape.numel [activation.numel / columns, columns] = dense.numel := by
          rw [View.numel_batch shape wide count, View.numel, View.numel, copied.shape]
        rw [View.extent_last shape, if_neg wide] at failed
        cases (View.reshape_eq_ok.mpr ⟨⟨packed, same⟩, rfl⟩).symm.trans failed
  · rw [View.rank, shape] at scalar
    simp at scalar

/-- A matrix read with its axes exchanged. -/
def View.transposed (v : View) : View :=
  { v with shape := [v.extent 1, v.extent 0], strides := [v.stride 1, v.stride 0] }

theorem View.permute_transposed {v : View} (rank : v.rank = 2) :
    v.permute [1, 0] = .ok v.transposed := by
  have axes : [(1 : UInt64), 0].map UInt64.toNat = [1, 0] := rfl
  simp only [View.permute, axes, rank]
  rfl

theorem Memory.Has.strides_pair {mem : Memory} {v : View} {rows columns : UInt64}
    (there : mem.Has v) (shape : v.shape = [rows, columns]) :
    v.strides = [v.stride 0, v.stride 1] := by
  have rank := there.rank
  rw [shape] at rank
  obtain ⟨outer, inner, strides⟩ := List.length_eq_two.mp rank
  simp [View.stride, strides]

/-- A matrix without gaps has its columns side by side. -/
theorem Memory.Has.stride_of_isContiguous {mem : Memory} {v : View} {rows columns : UInt64}
    (there : mem.Has v) (shape : v.shape = [rows, columns]) (packed : v.isContiguous = true) :
    v.extent 1 ≤ 1 ∨ v.stride 1 = 1 := by
  rw [View.isContiguous, there.strides_pair shape, shape, Shape.isContiguous] at packed
  obtain ⟨step, found⟩ := Option.isSome_iff_exists.mp packed
  obtain ⟨expected, below, -⟩ := Shape.packedStep_cons found
  obtain ⟨unit, last, choice⟩ := Shape.packedStep_cons below
  cases last
  rcases choice with ⟨one, -⟩ | ⟨same, -⟩
  · left
    rw [View.extent, shape]
    exact Nat.le_of_eq (congrArg UInt64.toNat one)
  · exact .inr same

/-- A weight made ready between two machines: output features are its columns. -/
structure ReadyColumns (before : Machine) (weight w : Tensor) (rows columns : UInt64)
    (after : Machine) : Prop where
  shape : w.shape = [columns, rows]
  layout : w.isColumnMajor = true
  words : ∀ j < rows.toNat, ∀ p < columns.toNat,
    after.memory.load w.toView [p, j] = before.memory.load weight.toView [j, p]

private theorem ReadyColumns.of_transposed {before after : Machine} {weight dense w : Tensor}
    {rows columns : UInt64} (view : w.toView = dense.transposed)
    (there : after.memory.Has dense.toView) (shape : dense.shape = [rows, columns])
    (inner : dense.extent 1 ≤ 1 ∨ dense.stride 1 = 1)
    (words : ∀ j < rows.toNat, ∀ p < columns.toNat,
      after.memory.load dense.toView [j, p] = before.memory.load weight.toView [j, p]) :
    ReadyColumns before weight w rows columns after := by
  have extents := View.extent_pair shape
  refine ⟨by rw [view, View.transposed, extents.1, extents.2], ?_, fun j inRows p inColumns => ?_⟩
  · rw [view, View.isColumnMajor]
    simpa [View.transposed, View.rank, View.extent, View.stride] using inner
  · rw [view, ← words j inRows p inColumns]
    exact after.memory.load_transposed (there.strides_pair shape) j p

theorem ends_normalizedWeight (weight : Tensor) (machine : Machine) :
    (normalizedWeight (some weight)).Ends machine
      (fun operand after => machine.Follows [] after ∧ operand.tensor.kind = weight.kind ∧
        operand.tensor.device = weight.device ∧
        (operand.tensor.storage = weight.storage ∨
          machine.memory.next ≤ operand.tensor.storage) ∧
        Placement machine weight operand (weight.extent 1 ≤ 1 ∨ weight.stride 1 = 1) ∧
        (machine.memory.Has weight.toView → after.memory.Has operand.tensor.toView ∧
          ∀ rows columns, weight.shape = [rows, columns] →
            (operand.copied = true → weight.shape.count * weight.kind.size < 2 ^ 64) →
            ReadyColumns machine weight operand.tensor rows columns after))
      (fun _ after => machine.Follows [] after ∧ (machine.Serves weight.device →
        ∀ rows columns, weight.shape ≠ [rows, columns])) := by
  simp only [normalizedWeight, ends_bind, ends_defined, ends_require, ends_ite, ends_pure]
  refine ⟨fun matrix => ?_, fun other => ⟨.refl _ _, fun _ rows columns shape => ?_⟩⟩
  · have rank : weight.rank = 2 := by simpa using matrix
    -- a weight whose rows have no gaps is transposed in place, any other one after a copy
    constructor
    · intro dense
      rw [View.permute_transposed rank, ends_ok]
      refine (ends_share _ machine).mono (fun w after shared => ?_) fun _ _ none => none.elim
      obtain ⟨followed, view, memory⟩ := shared
      have place : w.storage = weight.storage := by rw [view]; rfl
      refine ⟨followed, by rw [view]; rfl, by rw [view]; rfl, .inl place,
        ⟨by simp [dense], fun _ => place, fun gaps => absurd dense gaps⟩,
        fun there => ⟨?_, fun rows columns shape _ => ?_⟩⟩
      · rw [view, memory]
        exact ⟨rfl, there.stored⟩
      · exact .of_transposed view (there.later followed.memory) shape dense fun j _ p _ => by
          rw [memory]
    · intro gaps
      refine (ends_contiguousTensor weight machine).mono (fun dense middle made => ?_)
        fun _ _ failed => ⟨failed.1, fun serves => absurd serves failed.2⟩
      obtain ⟨copied, device, packed, same, new⟩ := made
      rw [View.permute_transposed (by rw [View.rank, copied.shape]; exact rank), ends_ok]
      refine (ends_share _ middle).mono (fun w after shared => ?_) fun _ _ none => none.elim
      obtain ⟨followed, view, memory⟩ := shared
      have place : w.storage = dense.storage := by rw [view]; rfl
      refine ⟨copied.follows.trans followed, by rw [view, ← copied.kind]; rfl,
        by rw [view, ← device]; rfl, by rw [place]; exact copied.place,
        ⟨by simp [gaps], fun direct => absurd direct gaps,
          fun _ uneven => by rw [place]; exact new uneven⟩,
        fun there => ⟨?_, fun rows columns shape bytes => ?_⟩⟩
      · rw [view, memory]
        exact ⟨rfl, (copied.has there).stored⟩
      · have arrived := copied.has there
        refine .of_transposed view (arrived.later followed.memory) (copied.shape.trans shape)
          (arrived.stride_of_isContiguous (copied.shape.trans shape) packed)
          fun j inRows p inColumns => ?_
        rw [memory]
        refine copied.words_of_bytes same there (bytes trivial) ?_
        rw [shape]
        exact Shape.within_of_lt inRows inColumns
  · rw [View.rank, shape] at other
    cases other

/-- A scale without gaps is its own operand. -/
theorem ends_normalizedScale (scale : Tensor) (machine : Machine) :
    (normalizedScale (some scale)).Ends machine
      (fun operand after => machine.Follows [] after ∧
        (scale.isContiguous = true → operand.tensor = scale ∧ after = machine))
      (fun _ after => machine.Follows [] after ∧ ¬scale.isContiguous = true) := by
  simp only [normalizedScale, ends_bind, ends_defined, ends_ite, ends_pure]
  refine ⟨fun _ => ⟨.refl _ _, fun _ => ⟨trivial, trivial⟩⟩, fun gaps => ?_⟩
  exact (ends_contiguousTensor scale machine).mono
    (fun _ _ made => ⟨made.1.follows, fun packed => absurd packed gaps⟩)
    fun _ _ failed => ⟨failed.1, gaps⟩

end QuantLinear
