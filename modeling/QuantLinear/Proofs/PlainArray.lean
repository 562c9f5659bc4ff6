import Mathlib.Algebra.BigOperators.Group.List.Basic
import Mathlib.Tactic.Ring
import QuantLinear.Proofs.Layout

/-!
Plain arrays, and views as plain arrays.

A plain array is its shape and its entries in row-major order. It is reshaped, permuted and sliced by
what its entries are, without strides or offsets. The elements of a view are selected from a storage
by strides and an offset: each operation on views selects from the elements of its source
(`View.Selects`), and so does to the array that the view shows what the plain operation does
(`array_reshape`, `array_permute`, `array_narrow`).
-/

namespace QuantLinear

/-- The position on each axis of an index whose axes were put in the given order. -/
def axisPositions (rank : Nat) (axes : List Nat) (index : Index) : Index :=
  (List.range rank).map fun axis => index.getD (axes.idxOf axis) 0

/-- An array of words of a kind on a device, without any layout. -/
structure PlainArray where
  kind : ElementKind
  device : Device
  shape : Shape
  /-- The entries in row-major order. -/
  entries : List Nat
deriving DecidableEq, Repr

namespace PlainArray

def get (array : PlainArray) (index : Index) : Nat :=
  array.entries.getD (array.shape.placeOf index) 0

/-- The array with the given entry at each index of a shape. -/
def tabulate (array : PlainArray) (shape : Shape) (entry : Index → Nat) : PlainArray :=
  { array with shape := shape, entries := (Shape.indices shape).map entry }

/-- The same entries under another shape. -/
def reshape (array : PlainArray) (shape : Shape) : PlainArray := { array with shape := shape }

/-- The same entries with axis `i` taken from axis `axes[i]`. -/
def permute (array : PlainArray) (axes : List Nat) : PlainArray :=
  array.tabulate (axes.map fun axis => array.shape.getD axis 0) fun index =>
    array.get (axisPositions array.shape.length axes index)

/-- The entries at `length` positions of an axis from `start` on. -/
def narrowAxis (array : PlainArray) (slice : Slice) : PlainArray :=
  array.tabulate (array.shape.set slice.axis.toNat slice.length) fun index =>
    array.get (index.modify slice.axis.toNat (· + slice.start.toNat))

/-- The entries within all of the given slices. -/
def narrow (array : PlainArray) (slices : List Slice) : PlainArray := slices.foldl narrowAxis array

private theorem get_tabulate (array : PlainArray) {shape : Shape} {index : Index}
    (inside : shape.Within index) (entry : Index → Nat) :
    (array.tabulate shape entry).get index = entry index := by
  have below := Shape.placeOf_lt inside
  simp only [get, tabulate, Shape.indices_eq_positions, Shape.positions_eq_map_indexAt, List.map_map,
    List.getD_eq_getElem?_getD, List.getElem?_map, List.getElem?_range below, Option.map_some,
    Option.getD_some, Function.comp_apply, Shape.indexAt_placeOf inside]

private theorem tabulate_congr {array : PlainArray} {shape : Shape} {entry other : Index → Nat}
    (same : ∀ index, shape.Within index → entry index = other index) :
    array.tabulate shape entry = array.tabulate shape other := by
  rw [tabulate, tabulate, List.map_congr_left fun index member =>
    same index ((Shape.mem_indices _ _).mp member)]

end PlainArray

section Axes

theorem within_iff {shape : Shape} {index : Index} :
    shape.Within index ↔ index.length = shape.length ∧
      ∀ axis < shape.length, index.getD axis 0 < (shape.getD axis 0).toNat := by
  induction shape generalizing index with
  | nil => cases index <;> simp [Shape.Within]
  | cons extent inner ih =>
    cases index with
    | nil => simp [Shape.Within]
    | cons i rest =>
      rw [Shape.Within, ih]
      constructor
      · rintro ⟨first, length, others⟩
        refine ⟨congrArg (· + 1) length, fun axis below => ?_⟩
        cases axis with
        | zero => exact first
        | succ axis => exact others axis (Nat.lt_of_succ_lt_succ below)
      · rintro ⟨length, all⟩
        refine ⟨all 0 (Nat.succ_pos _), Nat.succ.inj length, fun axis below => ?_⟩
        exact all (axis + 1) (Nat.succ_lt_succ below)

/-- The distance of an index is the sum of the distances on its axes. -/
private theorem elementOffset_eq_sum {strides : Strides} {index : Index}
    (length : index.length = strides.length) : elementOffset strides index =
      ((List.range strides.length).map fun axis =>
        (index.getD axis 0 : Int) * (strides.getD axis 0).toInt).sum := by
  induction strides generalizing index with
  | nil => simp [elementOffset_nil_left]
  | cons stride strides ih =>
    cases index with
    | nil => cases length
    | cons i rest =>
      -- the first axis is the first summand, and all others are counted one further
      rw [elementOffset_cons, ih (Nat.succ.inj length), List.length_cons, List.range_succ_eq_map]
      simp [Function.comp_def]

/-- The distance of an index whose axes are taken in another order. -/
private theorem elementOffset_map {axes : List Nat} (distinct : axes.Nodup) {index : Index}
    (length : index.length = axes.length) (stride : Nat → Int64) :
    elementOffset (axes.map stride) index =
      (axes.map fun axis => (index.getD (axes.idxOf axis) 0 : Int) * (stride axis).toInt).sum := by
  induction axes generalizing index with
  | nil => simp [elementOffset_nil_left]
  | cons first rest ih =>
    cases index with
    | nil => cases length
    | cons i others =>
      obtain ⟨new, distinct⟩ := List.nodup_cons.mp distinct
      rw [List.map_cons, elementOffset_cons, ih distinct (Nat.succ.inj length), List.map_cons,
        List.sum_cons, List.idxOf_cons_self, List.getD_cons_zero]
      congr 2
      -- the other axes come one place later
      refine List.map_congr_left fun axis member => ?_
      have apart : first ≠ axis := fun same => new (same ▸ member)
      rw [List.idxOf_cons_ne _ apart, List.getD_cons_succ]

private theorem getD_axisPositions {rank axis : Nat} (axes : List Nat) (index : Index)
    (below : axis < rank) :
    (axisPositions rank axes index).getD axis 0 = index.getD (axes.idxOf axis) 0 := by
  simp [axisPositions, below]

/-- An order of all axes takes each index as far as the index it stands for. -/
private theorem elementOffset_permute {strides : Strides} {axes : List Nat} {index : Index}
    (perm : axes.Perm (List.range strides.length)) (length : index.length = strides.length) :
    elementOffset (axes.map fun axis => strides.getD axis 0) index =
      elementOffset strides (axisPositions strides.length axes index) := by
  have distinct : axes.Nodup := perm.nodup_iff.mpr List.nodup_range
  have count : axes.length = strides.length := by rw [perm.length_eq, List.length_range]
  -- both sides sum up one term for each axis, in two orders
  rw [elementOffset_map distinct (length.trans count.symm),
    elementOffset_eq_sum (by simp [axisPositions]), (perm.map _).sum_eq]
  congr 1
  refine List.map_congr_left fun axis member => ?_
  rw [getD_axisPositions axes index (List.mem_range.mp member)]

private theorem within_permute {shape : Shape} {axes : List Nat} {index : Index}
    (perm : axes.Perm (List.range shape.length))
    (inside : Shape.Within (axes.map fun axis => shape.getD axis 0) index) :
    shape.Within (axisPositions shape.length axes index) := by
  obtain ⟨-, below⟩ := within_iff.mp inside
  refine within_iff.mpr ⟨by simp [axisPositions], fun axis there => ?_⟩
  have member : axis ∈ axes := perm.mem_iff.mpr (List.mem_range.mpr there)
  -- the axis is shown at its place in the order, and has its extent there
  have place := List.idxOf_lt_length_of_mem member
  have here := below (axes.idxOf axis) (by simpa using place)
  rw [getD_axisPositions axes index there]
  simpa [place, List.getElem_idxOf] using here

private theorem count_eq_prod (shape : Shape) : shape.count = (shape.map UInt64.toNat).prod := by
  induction shape with
  | nil => rfl
  | cons extent inner ih => rw [Shape.count_cons, ih, List.map_cons, List.prod_cons]

private theorem count_permute {shape : Shape} {axes : List Nat}
    (perm : axes.Perm (List.range shape.length)) :
    Shape.count (axes.map fun axis => shape.getD axis 0) = shape.count := by
  rw [count_eq_prod, count_eq_prod, List.map_map, (perm.map _).prod_eq]
  congr 1
  apply List.ext_getElem
  · simp
  · intro axis _ below
    have there : axis < shape.length := by simpa using below
    simp [there]

/-- Moving along one axis. -/
theorem elementOffset_modify {strides : Strides} {index : Index} {axis : Nat} (start : Nat)
    (there : axis < index.length) :
    elementOffset strides (index.modify axis (· + start)) =
      elementOffset strides index + start * (strides.getD axis 0).toInt := by
  induction strides generalizing index axis with
  | nil => simp [elementOffset_nil_left]
  | cons stride strides ih =>
    cases index with
    | nil => cases there
    | cons i rest =>
      cases axis with
      | zero =>
        simp only [List.modify_zero_cons, elementOffset_cons, List.getD_cons_zero]
        push_cast
        ring
      | succ axis =>
        have inner := ih (Nat.lt_of_succ_lt_succ there)
        simp only [List.modify_succ_cons, elementOffset_cons, List.getD_cons_succ, inner]
        ring

private theorem within_narrow {shape : Shape} {axis start : Nat} {length : UInt64} {index : Index}
    (fits : start + length.toNat ≤ (shape.getD axis 0).toNat)
    (inside : Shape.Within (shape.set axis length) index) :
    shape.Within (index.modify axis (· + start)) := by
  obtain ⟨rank, below⟩ := within_iff.mp inside
  rw [List.length_set] at rank below
  refine within_iff.mpr ⟨by rw [List.length_modify, rank], fun other there => ?_⟩
  have here := below other there
  have stored : other < index.length := by rwa [rank]
  -- only the sliced axis has another extent and another position
  by_cases same : axis = other
  · subst same
    simp only [List.getD_eq_getElem?_getD, List.getElem?_set_self there, List.getElem?_modify_eq,
      List.getElem?_eq_getElem stored, Option.map_eq_map, Option.map_some,
      Option.getD_some] at here fits ⊢
    omega
  · simpa [List.getElem?_modify, List.getElem?_set, same] using here

private theorem count_set_le {shape : Shape} {axis : Nat} {length : UInt64}
    (fits : length.toNat ≤ (shape.getD axis 0).toNat) :
    Shape.count (shape.set axis length) ≤ shape.count := by
  induction shape generalizing axis with
  | nil => simp
  | cons extent inner ih =>
    cases axis with
    | zero =>
      simp only [List.set_cons_zero, Shape.count_cons]
      exact Nat.mul_le_mul_right _ fits
    | succ axis =>
      simp only [List.set_cons_succ, Shape.count_cons]
      exact Nat.mul_le_mul_left _ (ih fits)

end Axes

namespace View

/-- Positions of two views have one address where their offsets agree modulo the word. -/
theorem address_of_modEq {v w : View} {i j : Index}
    (same : (w.offset.toNat : Int) + elementOffset w.strides i * w.kind.size ≡
      v.offset.toNat + elementOffset v.strides j * v.kind.size [ZMOD 2 ^ 64]) :
    w.address i = v.address j := by
  rw [address, address, addressAt_eq, addressAt_eq, same]

/-- Axes are put in any order of all of them, and in nothing else. -/
theorem permute_eq_ok {v w : View} {order : List UInt64} :
    v.permute order = .ok w ↔ (order.map UInt64.toNat).Perm (List.range v.rank) ∧
      w = { v with
        shape := (order.map UInt64.toNat).map v.extent
        strides := (order.map UInt64.toNat).map v.stride } := by
  simp only [permute, bind_eq_ok, require_eq_ok, pure_eq_ok, beq_iff_eq, Bool.and_eq_true,
    List.all_eq_true, decide_eq_true_eq, perm_range_iff]
  constructor
  · rintro ⟨-, length, -, ⟨below, distinct⟩, same⟩
    exact ⟨⟨length, below, distinct⟩, same.symm⟩
  · rintro ⟨⟨length, below, distinct⟩, same⟩
    exact ⟨(), length, (), ⟨below, distinct⟩, same.symm⟩

theorem numel_eq_iff {v : View} {shape : Shape} (fits : shape.count < 2 ^ 63)
    (count : v.shape.count < 2 ^ 63) : shape.numel = v.numel ↔ shape.count = v.shape.count := by
  rw [← UInt64.toNat_inj, View.numel, Shape.toNat_numel_of_lt (by omega),
    Shape.toNat_numel_of_lt (by omega)]

theorem narrowAxis_eq_ok {source v w : View} {slice : Slice} :
    narrowAxis source v slice = .ok w ↔ (slice.axis.toNat < source.rank ∧
      slice.start + slice.length ≤ source.extent slice.axis.toNat) ∧
      w = { v with
        shape := v.shape.set slice.axis.toNat slice.length
        offset := v.offset + slice.start * (source.stride slice.axis.toNat).toUInt64 *
          UInt64.ofNat source.kind.size } := by
  simp only [narrowAxis, bind_eq_ok, require_eq_ok, pure_eq_ok, Bool.and_eq_true, decide_eq_true_eq]
  constructor
  · rintro ⟨-, inside, same⟩
    exact ⟨inside, same.symm⟩
  · rintro ⟨inside, same⟩
    exact ⟨(), inside, same.symm⟩

end View

namespace View

/-- Axes in another order show each element at the index that its positions make up. -/
private theorem selects_permute {v w : View} {axes : List Nat}
    (rank : v.strides.length = v.shape.length)
    (perm : axes.Perm (List.range v.rank))
    (view : w = { v with shape := axes.map v.extent, strides := axes.map v.stride }) :
    w.Selects v (axisPositions v.rank axes) := by
  subst view
  refine ⟨rfl, rfl, rfl, by simp, fun index inside => within_permute perm inside, fun index inside => ?_⟩
  have length : index.length = v.strides.length := by
    rw [inside.length_eq, List.length_map, perm.length_eq, List.length_range, rank, View.rank]
  have ordered : axes.Perm (List.range v.strides.length) := by rwa [rank]
  have offset := elementOffset_permute ordered length
  rw [rank] at offset
  exact congrArg v.addressAt offset

/-- Moving the first element moves all others. -/
theorem offset_narrow (offset start : UInt64) (stride : Int64) (kind : ElementKind) (elements : Int) :
    ((offset + start * stride.toUInt64 * UInt64.ofNat kind.size).toNat : Int) +
        elements * kind.size ≡
      offset.toNat + (elements + start.toNat * stride.toInt) * kind.size [ZMOD 2 ^ 64] := by
  have moved : ((start * stride.toUInt64 * UInt64.ofNat kind.size).toNat : Int) ≡
      start.toNat * stride.toInt * kind.size [ZMOD 2 ^ 64] := by
    have step := (toNat_mul_modEq start stride.toUInt64).trans
      ((toNat_toUInt64_modEq stride).mul_left _)
    have bytes := toNat_mul_modEq (start * stride.toUInt64) (UInt64.ofNat kind.size)
    rw [kind.toNat_size] at bytes
    exact bytes.trans (step.mul_right _)
  calc ((offset + start * stride.toUInt64 * UInt64.ofNat kind.size).toNat : Int) +
        elements * kind.size
      ≡ offset.toNat + (start * stride.toUInt64 * UInt64.ofNat kind.size).toNat +
        elements * kind.size [ZMOD 2 ^ 64] := (toNat_add_modEq _ _).add_right _
    _ ≡ offset.toNat + start.toNat * stride.toInt * kind.size + elements * kind.size
        [ZMOD 2 ^ 64] := (moved.add_left _).add_right _
    _ = offset.toNat + (elements + start.toNat * stride.toInt) * kind.size := by ring

/-- A slice shows the elements from its start on. -/
private theorem selects_narrowAxis {source v w : View} {slice : Slice}
    (rank : v.strides.length = v.shape.length)
    (strides : v.strides = source.strides) (kind : v.kind = source.kind)
    (axis : slice.axis.toNat < v.rank)
    (fits : slice.start.toNat + slice.length.toNat ≤ (v.extent slice.axis.toNat).toNat)
    (view : w = { v with
      shape := v.shape.set slice.axis.toNat slice.length
      offset := v.offset + slice.start * (source.stride slice.axis.toNat).toUInt64 *
        UInt64.ofNat source.kind.size }) :
    w.Selects v fun index => index.modify slice.axis.toNat (· + slice.start.toNat) := by
  rw [stride, ← strides, ← kind] at view
  subst view
  refine ⟨rfl, rfl, rfl, by simpa using rank, fun index inside => within_narrow fits inside,
    fun index inside => ?_⟩
  have there : slice.axis.toNat < index.length := by
    rw [inside.length_eq, List.length_set]
    exact axis
  apply address_of_modEq
  rw [elementOffset_modify slice.start.toNat there]
  exact offset_narrow v.offset slice.start _ v.kind (elementOffset v.strides index)

/-- A view on the way from `source` through slices, of which the axes of those to come are whole. -/
structure Slicing (source v : View) (rest : List Slice) : Prop where
  strides : v.strides = source.strides
  kind : v.kind = source.kind
  rank : v.rank = source.rank
  extent : ∀ slice ∈ rest, v.extent slice.axis.toNat = source.extent slice.axis.toNat

theorem Slicing.start (source : View) (slices : List Slice) : Slicing source source slices :=
  ⟨rfl, rfl, rfl, fun _ _ => rfl⟩

theorem Slicing.next {source v w : View} {slice : Slice} {rest : List Slice}
    (slicing : Slicing source v (slice :: rest)) (apart : ∀ other ∈ rest, slice.axis ≠ other.axis)
    (made : narrowAxis source v slice = .ok w) : Slicing source w rest := by
  obtain ⟨-, view⟩ := narrowAxis_eq_ok.mp made
  subst view
  refine ⟨slicing.strides, slicing.kind, by simpa [View.rank] using slicing.rank,
    fun other member => ?_⟩
  -- slices to come are of other axes, which this one leaves as they are
  have axes : slice.axis.toNat ≠ other.axis.toNat :=
    fun same => apart other member (UInt64.toNat_inj.mp same)
  rw [← slicing.extent other (List.mem_cons_of_mem _ member), View.extent, View.extent]
  simp [axes]

end View

namespace Memory

/-- The plain array that a view shows. -/
def array (mem : Memory) (v : View) : PlainArray := ⟨v.kind, v.device, v.shape, mem.elements v⟩

/-- A view whose elements can be counted and lie in its storage. -/
structure Holds (mem : Memory) (v : View) : Prop where
  has : mem.Has v
  count : v.shape.count < 2 ^ 63
  room : ∀ index, v.shape.Within index → v.address index + v.kind.size ≤ mem.size v.storage
  low : ∀ index, v.shape.Within index → v.address index < 2 ^ 63

variable {mem : Memory} {v w : View}

private theorem array_eq_tabulate (count : v.shape.count < 2 ^ 64) :
    mem.array v = (mem.array v).tabulate v.shape (mem.load v) := by
  rw [array, elements_eq_map_load mem v count]
  rfl

/-- Elements selected from a view lie where its own do. -/
theorem Holds.select {select : Index → Index} (holds : mem.Holds v) (selects : w.Selects v select)
    (count : w.shape.count < 2 ^ 63) : mem.Holds w where
  has := ⟨selects.rank, by rw [selects.storage]; exact holds.has.stored⟩
  count := count
  room index inside := by
    rw [selects.address index inside, selects.kind, selects.storage]
    exact holds.room _ (selects.inside index inside)
  low index inside := by
    rw [selects.address index inside]
    exact holds.low _ (selects.inside index inside)

/-- A selection from a view shows that selection from its array. -/
private theorem array_of_selects {select : Index → Index} (holds : mem.Holds v)
    (selects : w.Selects v select) (count : w.shape.count < 2 ^ 63) :
    mem.array w = (mem.array v).tabulate w.shape fun index => (mem.array v).get (select index) := by
  have large : (2 : Nat) ^ 63 < 2 ^ 64 := by decide
  have word (index : Index) (inside : w.shape.Within index) :
      mem.load w index = (mem.array v).get (select index) := by
    rw [array_eq_tabulate (Nat.lt_trans holds.count large),
      PlainArray.get_tabulate _ (selects.inside index inside), load_of_selects selects inside]
  rw [array_eq_tabulate (Nat.lt_trans count large), PlainArray.tabulate_congr word]
  simp only [PlainArray.tabulate, array, selects.kind, selects.device]

theorem array_reshape {shape : Shape} (holds : mem.Holds v) (count : shape.count < 2 ^ 63)
    (made : v.reshape shape = .ok w) :
    mem.Holds w ∧ mem.array w = (mem.array v).reshape shape := by
  obtain ⟨⟨packed, same⟩, view⟩ := View.reshape_eq_ok.mp made
  have counts := (View.numel_eq_iff count holds.count).mp same
  have selects := View.selects_reshape holds.has.rank packed counts view
  have shapes : w.shape = shape := by rw [view]
  have low : w.shape.count < 2 ^ 63 := by rwa [shapes]
  refine ⟨holds.select selects low, ?_⟩
  -- the entries are those of the same places
  rw [array, array, PlainArray.reshape, elements, elements, View.numel, shapes, same, selects.kind,
    selects.device]
  congr 1
  refine List.map_congr_left fun place member => ?_
  have below : place < shape.count := by
    have whole := List.mem_range.mp member
    rw [← same, Shape.toNat_numel] at whole
    exact Nat.lt_of_lt_of_le whole (Nat.mod_le _ _)
  have inside : w.shape.Within (shape.indexAt place) := by
    rw [shapes]
    exact Shape.within_indexAt below
  rw [load_of_selects selects inside, Shape.placeOf_indexAt below]

theorem array_permute {order : List UInt64} (holds : mem.Holds v)
    (made : v.permute order = .ok w) :
    mem.Holds w ∧ mem.array w = (mem.array v).permute (order.map UInt64.toNat) := by
  obtain ⟨perm, view⟩ := View.permute_eq_ok.mp made
  have selects := View.selects_permute holds.has.rank perm view
  have shapes : w.shape = (order.map UInt64.toNat).map v.extent := by rw [view]
  have low : w.shape.count < 2 ^ 63 := by
    rw [shapes]
    exact Nat.lt_of_le_of_lt (Nat.le_of_eq (count_permute perm)) holds.count
  refine ⟨holds.select selects low, ?_⟩
  rw [array_of_selects holds selects low, shapes]
  rfl

private theorem array_narrowAxis {source : View} {slice : Slice} {rest : List Slice}
    (holds : mem.Holds v)
    (slicing : View.Slicing source v (slice :: rest))
    (whole : slice.start.toNat + slice.length.toNat < 2 ^ 64)
    (made : View.narrowAxis source v slice = .ok w) :
    mem.Holds w ∧ mem.array w = (mem.array v).narrowAxis slice := by
  obtain ⟨⟨axis, bound⟩, view⟩ := View.narrowAxis_eq_ok.mp made
  have fits : slice.start.toNat + slice.length.toNat ≤ (v.extent slice.axis.toNat).toNat := by
    rw [UInt64.le_iff_toNat_le, UInt64.toNat_add, Nat.mod_eq_of_lt whole] at bound
    rwa [slicing.extent slice List.mem_cons_self]
  have selects := View.selects_narrowAxis holds.has.rank slicing.strides slicing.kind
    (by rwa [slicing.rank]) fits view
  have shapes : w.shape = v.shape.set slice.axis.toNat slice.length := by rw [view]
  have low : w.shape.count < 2 ^ 63 := by
    rw [shapes]
    exact Nat.lt_of_le_of_lt (count_set_le (Nat.le_trans (Nat.le_add_left _ _) fits)) holds.count
  refine ⟨holds.select selects low, ?_⟩
  rw [array_of_selects holds selects low, shapes]
  rfl

private theorem array_narrow_rest {source : View} {rest : List Slice} (holds : mem.Holds v)
    (slicing : View.Slicing source v rest) (distinct : rest.Pairwise fun a b => a.axis ≠ b.axis)
    (whole : ∀ slice ∈ rest, slice.start.toNat + slice.length.toNat < 2 ^ 64)
    (made : rest.foldlM (View.narrowAxis source) v = .ok w) :
    mem.Holds w ∧ mem.array w = (mem.array v).narrow rest := by
  -- by induction on the slices to come, whatever the ones before made of the source
  induction rest generalizing v with
  | nil =>
    cases made
    exact ⟨holds, rfl⟩
  | cons slice rest ih =>
    obtain ⟨apart, distinct⟩ := List.pairwise_cons.mp distinct
    rw [List.foldlM_cons] at made
    obtain ⟨middle, first, made⟩ := bind_eq_ok.mp made
    obtain ⟨held, sliced⟩ := array_narrowAxis holds slicing (whole slice List.mem_cons_self) first
    have later := ih held (slicing.next apart first) distinct
      (fun other member => whole other (List.mem_cons_of_mem _ member)) made
    refine ⟨later.1, ?_⟩
    rw [later.2, sliced]
    rfl

/-- Slices of different axes are taken one after the other. -/
theorem array_narrow {slices : List Slice} (holds : mem.Holds v)
    (distinct : slices.Pairwise fun a b => a.axis ≠ b.axis)
    (whole : ∀ slice ∈ slices, slice.start.toNat + slice.length.toNat < 2 ^ 64)
    (made : v.narrow slices = .ok w) :
    mem.Holds w ∧ mem.array w = (mem.array v).narrow slices :=
  array_narrow_rest holds (.start v slices) distinct whole made

end Memory

end QuantLinear
