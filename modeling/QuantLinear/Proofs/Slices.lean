import QuantLinear.Proofs.PlainArray

/-!
Which elements of its source a narrowed view shows.

All slices on an axis move the first element along it, while the last of them alone says how many
positions there are (`View.Narrowed`). Each slice is checked against the source as it was before any
slice, with an end that wraps. The elements are those of the source where the slices of each axis stay
within it together, which distinct axes and ends below `2 ^ 64` ensure (`View.narrow_shifts`).
-/

namespace QuantLinear

namespace Slice

/-- How far slices move along an axis, all of them together. -/
def starts (slices : List Slice) (axis : Nat) : Nat :=
  (slices.map fun slice => if slice.axis.toNat = axis then slice.start.toNat else 0).sum

/-- The extent of an axis after slices: that of the last slice on it, if there is one. -/
def extentAfter (slices : List Slice) (axis : Nat) (whole : UInt64) : UInt64 :=
  slices.foldl (fun extent slice => if slice.axis.toNat = axis then slice.length else extent) whole

/-- The index before slices of an index after them. -/
def shift (slices : List Slice) (index : Index) : Index :=
  index.mapIdx fun axis position => position + starts slices axis

variable {slice : Slice} {slices : List Slice} {axis : Nat} {index : Index}

private theorem starts_cons : starts (slice :: slices) axis =
    (if slice.axis.toNat = axis then slice.start.toNat else 0) + starts slices axis := by
  rw [starts, starts, List.map_cons, List.sum_cons]

private theorem extentAfter_cons (whole : UInt64) : extentAfter (slice :: slices) axis whole =
    extentAfter slices axis (if slice.axis.toNat = axis then slice.length else whole) := rfl

@[simp] theorem length_shift : (shift slices index).length = index.length := List.length_mapIdx

@[simp] theorem shift_nil : shift [] index = index := by
  apply List.ext_getElem <;> simp [shift, starts]

/-- The first slice is the last to be undone. -/
private theorem shift_cons : shift (slice :: slices) index =
    (shift slices index).modify slice.axis.toNat (· + slice.start.toNat) := by
  apply List.ext_getElem
  · simp
  · intro axis _ _
    simp only [shift, List.getElem_mapIdx, List.getElem_modify, starts_cons]
    split <;> omega

private theorem getD_shift (there : axis < index.length) :
    (shift slices index).getD axis 0 = index.getD axis 0 + starts slices axis := by
  simp [shift, List.getD_eq_getElem?_getD, there]

/-- Slices on other axes neither move along an axis nor shorten it. -/
private theorem of_apart (apart : ∀ slice ∈ slices, slice.axis.toNat ≠ axis) (whole : UInt64) :
    starts slices axis = 0 ∧ extentAfter slices axis whole = whole := by
  induction slices with
  | nil => exact ⟨rfl, rfl⟩
  | cons slice rest ih =>
    obtain ⟨none, same⟩ := ih fun other member => apart other (List.mem_cons_of_mem _ member)
    have other := apart slice List.mem_cons_self
    rw [starts_cons, none, extentAfter_cons, if_neg other, if_neg other]
    exact ⟨rfl, same⟩

/-- A single slice on an axis ends within it. -/
private theorem starts_add_extentAfter_le {whole : UInt64}
    (distinct : slices.Pairwise fun a b => a.axis ≠ b.axis)
    (fits : ∀ slice ∈ slices, slice.axis.toNat = axis →
      slice.start.toNat + slice.length.toNat ≤ whole.toNat) :
    starts slices axis + (extentAfter slices axis whole).toNat ≤ whole.toNat := by
  induction slices with
  | nil => simp [starts, extentAfter]
  | cons slice rest ih =>
    obtain ⟨apart, distinct⟩ := List.pairwise_cons.mp distinct
    rw [starts_cons, extentAfter_cons]
    by_cases here : slice.axis.toNat = axis
    · -- the others are on other axes
      have others : ∀ other ∈ rest, other.axis.toNat ≠ axis := fun other member same =>
        apart other member (UInt64.toNat_inj.mp (here.trans same.symm))
      obtain ⟨none, same⟩ := of_apart others slice.length
      rw [if_pos here, if_pos here, none, same, Nat.add_zero]
      exact fits slice List.mem_cons_self here
    · rw [if_neg here, if_neg here, Nat.zero_add]
      exact ih distinct fun other member => fits other (List.mem_cons_of_mem _ member)

end Slice

namespace View

variable {source v w : View} {slices : List Slice}

/-- A view `w` made from `v` by slices, whatever the slices leave of it. -/
structure Narrowed (w v : View) (slices : List Slice) : Prop where
  kind : w.kind = v.kind
  device : w.device = v.device
  storage : w.storage = v.storage
  strides : w.strides = v.strides
  rank : w.rank = v.rank
  extent : ∀ axis < v.rank, w.extent axis = Slice.extentAfter slices axis (v.extent axis)
  address : ∀ index, index.length = v.rank → w.address index = v.address (Slice.shift slices index)

theorem Narrowed.refl (v : View) : Narrowed v v [] :=
  ⟨rfl, rfl, rfl, rfl, rfl, fun _ _ => rfl, fun index _ => by rw [Slice.shift_nil]⟩

/-- One slice before others. -/
theorem Narrowed.cons {slice : Slice} {middle : View} (strides : v.strides = source.strides)
    (kind : v.kind = source.kind) (rank : v.rank = source.rank)
    (made : narrowAxis source v slice = .ok middle) (later : w.Narrowed middle slices) :
    w.Narrowed v (slice :: slices) := by
  obtain ⟨⟨axis, -⟩, view⟩ := narrowAxis_eq_ok.mp made
  have same : middle.rank = v.rank := by rw [view, View.rank, List.length_set, View.rank]
  exact {
    kind := later.kind.trans (by rw [view])
    device := later.device.trans (by rw [view])
    storage := later.storage.trans (by rw [view])
    strides := later.strides.trans (by rw [view])
    rank := later.rank.trans same
    extent := fun other there => by
      rw [later.extent other (by rwa [same]), Slice.extentAfter_cons]
      congr 1
      rw [view, View.extent, View.extent]
      split
      · next here =>
        subst here
        rw [List.getD_eq_getElem?_getD, List.getElem?_set_self there, Option.getD_some]
      · next elsewhere =>
        rw [List.getD_eq_getElem?_getD, List.getElem?_set_ne elsewhere, List.getD_eq_getElem?_getD]
    address := fun index length => by
      rw [later.address index (length.trans same.symm), Slice.shift_cons]
      -- the slice moves the first element as far as the index is moved
      apply address_of_modEq
      rw [elementOffset_modify slice.start.toNat (by rwa [Slice.length_shift, length, rank]), view,
        stride, ← strides, ← kind]
      exact offset_narrow v.offset slice.start _ v.kind _ }

/-- A run of slices, of which each is checked against one source. -/
private theorem narrowed_of_foldlM (strides : v.strides = source.strides) (kind : v.kind = source.kind)
    (rank : v.rank = source.rank) (made : slices.foldlM (narrowAxis source) v = .ok w) :
    w.Narrowed v slices := by
  induction slices generalizing v with
  | nil =>
    cases made
    exact .refl _
  | cons slice rest ih =>
    rw [List.foldlM_cons] at made
    obtain ⟨middle, first, made⟩ := bind_eq_ok.mp made
    obtain ⟨-, view⟩ := narrowAxis_eq_ok.mp first
    have same : middle.rank = v.rank := by rw [view, View.rank, List.length_set, View.rank]
    refine .cons strides kind rank first (ih ?_ ?_ (same.trans rank) made)
    · rw [view]
      exact strides
    · rw [view]
      exact kind

/-- Slices are taken where each one has an axis and, counted modulo the word, ends within it. -/
theorem narrow_returns_iff : (∃ w, v.narrow slices = .ok w) ↔ ∀ slice ∈ slices,
    slice.axis.toNat < v.rank ∧ slice.start + slice.length ≤ v.extent slice.axis.toNat := by
  -- the checks look at the source alone
  have run (u : View) : (∃ w, slices.foldlM (narrowAxis v) u = .ok w) ↔ ∀ slice ∈ slices,
      slice.axis.toNat < v.rank ∧ slice.start + slice.length ≤ v.extent slice.axis.toNat := by
    induction slices generalizing u with
    | nil => simp [pure, Except.pure]
    | cons slice rest ih =>
      simp only [List.foldlM_cons, bind_eq_ok, List.forall_mem_cons]
      constructor
      · rintro ⟨w, middle, first, later⟩
        exact ⟨(narrowAxis_eq_ok.mp first).1, (ih middle).mp ⟨w, later⟩⟩
      · rintro ⟨first, later⟩
        obtain ⟨w, made⟩ := (ih _).mpr later
        exact ⟨w, _, narrowAxis_eq_ok.mpr ⟨first, rfl⟩, made⟩
  exact run v

/-- An index space that is not empty has an index with the last position on each axis. -/
private theorem last_within {shape : Shape} (some : shape.count ≠ 0) :
    shape.Within (shape.map fun extent => extent.toNat - 1) := by
  obtain ⟨-, first⟩ := within_iff.mp (Shape.within_indexAt (Nat.pos_of_ne_zero some))
  refine within_iff.mpr ⟨List.length_map _, fun axis there => ?_⟩
  have positive := Nat.lt_of_le_of_lt (Nat.zero_le _) (first axis there)
  simp only [List.getD_eq_getElem?_getD, List.getElem?_map, List.getElem?_eq_getElem there,
    Option.map_some, Option.getD_some] at positive ⊢
  omega

/-- Where the elements of a narrowed view lie in the index space of its source. -/
private theorem Narrowed.inside_iff (narrowed : w.Narrowed v slices) :
    (∀ index, w.shape.Within index → v.shape.Within (Slice.shift slices index)) ↔
      w.shape.count = 0 ∨ ∀ axis < v.rank,
        Slice.starts slices axis + (w.extent axis).toNat ≤ (v.extent axis).toNat := by
  have rank : w.shape.length = v.shape.length := narrowed.rank
  constructor
  · intro inside
    by_cases none : w.shape.count = 0
    · exact .inl none
    · -- the last index reaches furthest on all axes at once
      have last := last_within none
      obtain ⟨-, first⟩ := within_iff.mp last
      obtain ⟨-, reached⟩ := within_iff.mp (inside _ last)
      refine .inr fun axis there => ?_
      have stored : axis < w.shape.length := by rwa [rank]
      have positive := first axis stored
      have below := reached axis there
      rw [Slice.getD_shift (by rwa [List.length_map])] at below
      simp only [View.extent, List.getD_eq_getElem?_getD, List.getElem?_map,
        List.getElem?_eq_getElem stored,
        List.getElem?_eq_getElem (show axis < v.shape.length from there),
        Option.map_some, Option.getD_some] at positive below ⊢
      omega
  · rintro (none | fits) index inside
    · exact absurd (Shape.placeOf_lt inside) (by rw [none]; exact Nat.not_lt_zero _)
    · obtain ⟨length, below⟩ := within_iff.mp inside
      refine within_iff.mpr ⟨by rw [Slice.length_shift, length, rank], fun axis there => ?_⟩
      have here := below axis (by rwa [rank])
      have room := fits axis there
      rw [Slice.getD_shift (by rwa [length, rank])]
      rw [View.extent, View.extent] at room
      omega

/-- A narrowed view shows the elements of its source from the sums of the starts on. They lie within
the source as far as the starts and the last length on an axis together do, which is so for slices of
different axes whose ends do not wrap. -/
theorem narrow_shifts (made : v.narrow slices = .ok w) :
    (w.rank = v.rank ∧
      ∀ axis < v.rank, w.extent axis = Slice.extentAfter slices axis (v.extent axis)) ∧
    (∀ index, w.shape.Within index → w.address index = v.address (Slice.shift slices index) ∧
      ∀ mem : Memory, mem.load w index = mem.load v (Slice.shift slices index)) ∧
    ((∀ index, w.shape.Within index → v.shape.Within (Slice.shift slices index)) ↔
      w.shape.count = 0 ∨ ∀ axis < v.rank,
        Slice.starts slices axis + (w.extent axis).toNat ≤ (v.extent axis).toNat) ∧
    (slices.Pairwise (fun a b => a.axis ≠ b.axis) →
      (∀ slice ∈ slices, slice.start.toNat + slice.length.toNat < 2 ^ 64) →
      ∀ index, w.shape.Within index → v.shape.Within (Slice.shift slices index)) := by
  have narrowed := narrowed_of_foldlM rfl rfl rfl made
  have accepted := narrow_returns_iff.mp ⟨w, made⟩
  refine ⟨⟨narrowed.rank, narrowed.extent⟩, fun index inside => ?_, narrowed.inside_iff,
    fun distinct whole => ?_⟩
  · have same := narrowed.address index (inside.length_eq.trans narrowed.rank)
    refine ⟨same, fun mem => ?_⟩
    rw [Memory.load, Memory.load, Memory.wordAt, Memory.wordAt, narrowed.storage, narrowed.kind, same]
  · refine narrowed.inside_iff.mpr (.inr fun axis there => ?_)
    rw [narrowed.extent axis there]
    refine Slice.starts_add_extentAfter_le distinct fun slice member on => ?_
    have fits := (accepted slice member).2
    rwa [UInt64.le_iff_toNat_le, UInt64.toNat_add, Nat.mod_eq_of_lt (whole slice member), on] at fits

/-- Sixteen bytes in four rows. -/
def fourRows : View := ⟨.u8, [4, 4], [4, 1], 0, 0, .host⟩

theorem narrow_shifts_fourRows : ∃ w, fourRows.narrow [⟨0, 1, 2⟩, ⟨1, 2, 2⟩] = .ok w ∧
    w.shape.Within [1, 1] ∧ fourRows.shape.Within [2, 3] ∧
    w.address [1, 1] = fourRows.address [2, 3] := by
  have made : fourRows.narrow [⟨0, 1, 2⟩, ⟨1, 2, 2⟩] =
      .ok { fourRows with shape := [2, 2], offset := 6 } := rfl
  have inside : Shape.Within [2, 2] [1, 1] := Shape.within_of_lt (by decide) (by decide)
  obtain ⟨-, shown, -, within⟩ := narrow_shifts made
  exact ⟨_, made, inside, within (by decide) (by decide) _ inside, (shown _ inside).1⟩

/-- The last four of eight bytes. -/
def lastBytes : View := ⟨.u8, [4], [1], 0, 4, .host⟩

/-- A start just below `2 ^ 64` passes the check, as its end wraps, and shows the byte in front of the
source. A second slice of an axis passes it as well, and shows bytes behind the source. -/
theorem narrow_leaves_lastBytes :
    (∃ w, lastBytes.narrow [⟨0, 0xFFFFFFFFFFFFFFFF, 2⟩] = .ok w ∧ w.shape.Within [0] ∧
      ¬lastBytes.shape.Within (Slice.shift [⟨0, 0xFFFFFFFFFFFFFFFF, 2⟩] [0]) ∧
      ∀ index, lastBytes.shape.Within index → w.address [0] < lastBytes.address index) ∧
    ∃ w, lastBytes.narrow [⟨0, 3, 1⟩, ⟨0, 2, 2⟩] = .ok w ∧ w.shape.Within [0] ∧
      ¬lastBytes.shape.Within (Slice.shift [⟨0, 3, 1⟩, ⟨0, 2, 2⟩] [0]) ∧
      ∀ index, lastBytes.shape.Within index → lastBytes.address index < w.address [0] := by
  have outside {place : Nat} (past : ¬place < 4) : ¬lastBytes.shape.Within [place] :=
    fun inside => past inside.1
  have bytes (P : Nat → Prop) (all : ∀ index ∈ Shape.indices [4], P (lastBytes.address index)) :
      ∀ index, lastBytes.shape.Within index → P (lastBytes.address index) :=
    fun index inside => all index ((Shape.mem_indices _ _).mpr inside)
  exact ⟨⟨{ lastBytes with shape := [2], offset := 3 }, rfl, ⟨by decide, trivial⟩, outside (by decide),
      bytes (3 < ·) (by decide)⟩,
    ⟨{ lastBytes with shape := [2], offset := 9 }, rfl, ⟨by decide, trivial⟩, outside (by decide),
      bytes (· < 9) (by decide)⟩⟩

end View

end QuantLinear
