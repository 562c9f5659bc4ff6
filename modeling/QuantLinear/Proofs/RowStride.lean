import Mathlib.Tactic.Ring
import QuantLinear.Layout
import QuantLinear.Proofs.RowMajor

/-!
When the leading axes of a tensor fold into one.

Axes fold where each stride is the one inside it times the extent in between; axes of extent one fold
anywhere. The places of the leading indices then lie at equal distances (`View.rowStride_spec`), and
no other strides put them there (`View.exists_rowStride_of_offsets`). The fold computes with 64-bit
words, so distances are equal modulo the word, or exactly where no step between two axes wraps.
-/

namespace QuantLinear

/-- The step of an axis keeps its value modulo the word. -/
theorem toInt_step_modEq (stride : Int64) (extent : UInt64) :
    (stride * extent.toInt64).toInt ≡ stride.toInt * extent.toNat [ZMOD 2 ^ 64] :=
  (toInt_mul_modEq _ _).trans ((toInt_toInt64_modEq extent).mul_left _)

/-- A signed word is the number within its range that it agrees with modulo the word. -/
theorem toInt_eq_of_modEq {a : Int64} {n : Int} (low : -2 ^ 63 ≤ n) (high : n < 2 ^ 63)
    (same : a.toInt ≡ n [ZMOD 2 ^ 64]) : a.toInt = n := by
  have below := a.toInt_lt
  have above := a.le_toInt
  obtain ⟨turns, apart⟩ := same.dvd
  omega

private theorem elementOffset_append {strides : Strides} {index : Index}
    (rank : strides.length = index.length) (stride : Int64) (i : Nat) :
    elementOffset (strides ++ [stride]) (index ++ [i]) =
      elementOffset strides index + i * stride.toInt := by
  induction strides generalizing index with
  | nil => cases index with
    | nil => simp [elementOffset]
    | cons first rest => cases rank
  | cons outer strides ih => cases index with
    | nil => cases rank
    | cons first rest =>
      simp only [List.cons_append, elementOffset_cons, ih (Nat.succ.inj rank), add_assoc]

namespace Shape

theorem count_append (lead : Shape) (columns : UInt64) :
    count (lead ++ [columns]) = count lead * columns.toNat := by
  induction lead with
  | nil => simp [count_cons]
  | cons extent inner ih => rw [List.cons_append, count_cons, count_cons, ih, Nat.mul_assoc]

theorem exists_of_within_cons {extent : UInt64} {inner : Shape} {index : Index}
    (inside : Within (extent :: inner) index) :
    ∃ i rest, index = i :: rest ∧ i < extent.toNat ∧ inner.Within rest := by
  cases index with
  | nil => exact inside.elim
  | cons i rest => exact ⟨i, rest, rfl, inside⟩

theorem within_append {lead : Shape} {columns : UInt64} {index : Index} {i : Nat}
    (inside : lead.Within index) (below : i < columns.toNat) :
    Within (lead ++ [columns]) (index ++ [i]) := by
  induction lead generalizing index with
  | nil =>
    cases index with
    | nil => exact ⟨below, trivial⟩
    | cons j rest => exact inside.elim
  | cons extent inner ih =>
    cases index with
    | nil => exact inside.elim
    | cons j rest => exact ⟨inside.1, ih inside.2⟩

/-- An index is one of the leading axes with a position on the last. -/
theorem exists_of_within_append {lead : Shape} {columns : UInt64} {index : Index}
    (inside : Within (lead ++ [columns]) index) :
    ∃ front i, index = front ++ [i] ∧ lead.Within front ∧ i < columns.toNat := by
  induction lead generalizing index with
  | nil =>
    cases index with
    | nil => exact inside.elim
    | cons j rest =>
      cases rest with
      | nil => exact ⟨[], j, rfl, trivial, inside.1⟩
      | cons => exact inside.2.elim
  | cons extent inner ih =>
    cases index with
    | nil => exact inside.elim
    | cons j rest =>
      obtain ⟨front, i, rfl, within, below⟩ := ih inside.2
      exact ⟨j :: front, i, rfl, ⟨inside.1, within⟩, below⟩

/-- The innermost axis adds the position within its row. -/
theorem placeOf_append {lead : Shape} {columns : UInt64} {index : Index} {i : Nat}
    (inside : lead.Within index) :
    placeOf (lead ++ [columns]) (index ++ [i]) = placeOf lead index * columns.toNat + i := by
  induction lead generalizing index with
  | nil =>
    cases index with
    | nil => simp [placeOf, count]
    | cons j rest => exact inside.elim
  | cons extent inner ih =>
    cases index with
    | nil => exact inside.elim
    | cons j rest =>
      rw [List.cons_append, List.cons_append, placeOf_cons, placeOf_cons, ih inside.2, count_append,
        Nat.add_mul, Nat.mul_assoc, Nat.add_assoc]

section Equidistant

variable {extent : UInt64} {inner : Shape} {stride : Int64} {strides : Strides} {distance : Int}

/-- The inner axes alone are those at the first position of the outer one. -/
theorem offsets_inner (some : 0 < extent.toNat)
    (equal : ∀ index, Within (extent :: inner) index →
      elementOffset (stride :: strides) index ≡
        placeOf (extent :: inner) index * distance [ZMOD 2 ^ 64])
    {index : Index} (inside : inner.Within index) :
    elementOffset strides index ≡ inner.placeOf index * distance [ZMOD 2 ^ 64] := by
  have first := equal (0 :: index) ⟨some, inside⟩
  simpa [elementOffset_cons, placeOf_cons] using first

/-- The second position of an axis is a whole run of the inner ones further on than the first. -/
theorem stride_of_offsets (other : extent ≠ 1) (full : count (extent :: inner) ≠ 0)
    (equal : ∀ index, Within (extent :: inner) index →
      elementOffset (stride :: strides) index ≡
        placeOf (extent :: inner) index * distance [ZMOD 2 ^ 64]) :
    stride.toInt ≡ distance * inner.count [ZMOD 2 ^ 64] := by
  rw [count_cons, Nat.mul_ne_zero_iff] at full
  obtain ⟨many, full⟩ := full
  have more : 1 < extent.toNat := by
    have apart : extent.toNat ≠ 1 := fun one => other (UInt64.toNat_inj.mp one)
    omega
  have zero := within_indexAt (Nat.pos_of_ne_zero full)
  have start := equal (0 :: indexAt inner 0) ⟨Nat.pos_of_ne_zero many, zero⟩
  have second := equal (1 :: indexAt inner 0) ⟨more, zero⟩
  have apart := second.sub start
  simp only [elementOffset_cons, placeOf_cons] at apart
  push_cast at apart
  ring_nf at apart
  rwa [mul_comm] at apart

end Equidistant

end Shape

namespace View

private theorem foldedStride_cons {extent : UInt64} {shape : Shape} {stride : Int64} {strides : Strides}
    {folded : Option (Int64 × Int64)}
    (found : foldedStride (extent :: shape) (stride :: strides) = some folded) :
    ∃ inner, foldedStride shape strides = some inner ∧
      (extent = 1 ∧ folded = inner ∨
        extent ≠ 1 ∧ inner = none ∧ folded = some (stride, stride * extent.toInt64) ∨
        extent ≠ 1 ∧ ∃ row, inner = some (row, stride) ∧
          folded = some (row, stride * extent.toInt64)) := by
  rw [foldedStride] at found
  obtain ⟨inner, below, rest⟩ := Option.bind_eq_some_iff.mp found
  refine ⟨inner, below, ?_⟩
  split at rest
  · next one => exact .inl ⟨one, (Option.some.inj rest).symm⟩
  · next many =>
    cases inner with
    | none => exact .inr (.inl ⟨many, rfl, (Option.some.inj rest).symm⟩)
    | some pair =>
      obtain ⟨row, expected⟩ := pair
      simp only at rest
      split at rest
      · next same =>
        exact .inr (.inr ⟨many, row, by rw [same], (Option.some.inj rest).symm⟩)
      · cases rest

/-- Axes whose indices lie at their places times one distance, counted modulo `n`. Where there is only
one position there need not be a distance. -/
def Spaced (n : Int) (shape : Shape) (strides : Strides) : Option Int64 → Prop
  | none => shape.count = 1 ∧ ∀ index, shape.Within index → elementOffset strides index = 0
  | some row => ∀ index, shape.Within index →
      elementOffset strides index ≡ shape.placeOf index * row.toInt [ZMOD n]

/-- Axes that act as one: they are spaced by a distance, and the step to the axis outside is as far as
all of them reach. -/
def Folds (n : Int) (shape : Shape) (strides : Strides) (folded : Option (Int64 × Int64)) : Prop :=
  Spaced n shape strides (folded.map Prod.fst) ∧
    ∀ row step, folded = some (row, step) → step.toInt ≡ row.toInt * shape.count [ZMOD n]

/-- Whether the step of an axis is computed without an error modulo `n`. -/
def StepAt (n : Int) (shape : Shape) (strides : Strides) (axis : Nat) : Prop :=
  (strides.getD axis 0 * (shape.getD axis 0).toInt64).toInt ≡
    (strides.getD axis 0).toInt * (shape.getD axis 0).toNat [ZMOD n]

theorem stepAt_word (shape : Shape) (strides : Strides) (axis : Nat) :
    StepAt (2 ^ 64) shape strides axis :=
  toInt_step_modEq _ _

section Axes

variable {n : Int} {extent : UInt64} {inner : Shape} {stride : Int64} {strides : Strides}

/-- An axis with one position adds nothing. -/
private theorem Spaced.skip {row : Option Int64} (spaced : Spaced n inner strides row)
    (one : extent = 1) :
    Spaced n (extent :: inner) (stride :: strides) row := by
  have skip (index : Index) (inside : Shape.Within (extent :: inner) index) :
      ∃ rest, Shape.Within inner rest ∧
        elementOffset (stride :: strides) index = elementOffset strides rest ∧
        Shape.placeOf (extent :: inner) index = Shape.placeOf inner rest := by
    obtain ⟨i, rest, rfl, below, within⟩ := Shape.exists_of_within_cons inside
    have first : i = 0 := by simpa [one] using below
    exact ⟨rest, within, by simp [elementOffset_cons, first], by simp [Shape.placeOf_cons, first]⟩
  cases row with
  | none =>
    refine ⟨by rw [Shape.count_cons, one, spaced.1]; rfl, fun index inside => ?_⟩
    obtain ⟨rest, within, offset, -⟩ := skip index inside
    rw [offset, spaced.2 rest within]
  | some row =>
    intro index inside
    obtain ⟨rest, within, offset, place⟩ := skip index inside
    rw [offset, place]
    exact spaced rest within

/-- The innermost axis with more than one position sets the distance. -/
theorem Spaced.first (spaced : Spaced n inner strides none) :
    Spaced n (extent :: inner) (stride :: strides) (some stride) := by
  intro index inside
  obtain ⟨i, rest, rfl, -, within⟩ := Shape.exists_of_within_cons inside
  have first := Shape.placeOf_lt within
  rw [spaced.1, Nat.lt_one_iff] at first
  rw [elementOffset_cons, spaced.2 rest within, Shape.placeOf_cons, spaced.1, first, Nat.mul_one]
  simp

/-- An axis goes on where the inner ones end. -/
theorem Spaced.next {row : Int64} (spaced : Spaced n inner strides (some row))
    (ends : stride.toInt ≡ row.toInt * Shape.count inner [ZMOD n]) :
    Spaced n (extent :: inner) (stride :: strides) (some row) := by
  intro index inside
  obtain ⟨i, rest, rfl, -, within⟩ := Shape.exists_of_within_cons inside
  rw [elementOffset_cons, Shape.placeOf_cons]
  push_cast
  rw [add_mul, mul_assoc, mul_comm (Shape.count inner : Int)]
  exact (ends.mul_left _).add (spaced rest within)

private theorem Folds.skip {folded : Option (Int64 × Int64)} (folds : Folds n inner strides folded)
    (one : extent = 1) : Folds n (extent :: inner) (stride :: strides) folded := by
  refine ⟨folds.1.skip one, fun row step is => ?_⟩
  rw [Shape.count_cons, one]
  simpa using folds.2 row step is

theorem Folds.first (folds : Folds n inner strides none)
    (step : (stride * extent.toInt64).toInt ≡ stride.toInt * extent.toNat [ZMOD n]) :
    Folds n (extent :: inner) (stride :: strides) (some (stride, stride * extent.toInt64)) := by
  refine ⟨Spaced.first folds.1, fun row reached is => ?_⟩
  cases is
  rwa [Shape.count_cons, folds.1.1, Nat.mul_one]

theorem Folds.next {row : Int64} (folds : Folds n inner strides (some (row, stride)))
    (step : (stride * extent.toInt64).toInt ≡ stride.toInt * extent.toNat [ZMOD n]) :
    Folds n (extent :: inner) (stride :: strides) (some (row, stride * extent.toInt64)) := by
  have ends := folds.2 row stride rfl
  refine ⟨Spaced.next folds.1 ends, fun row reached is => ?_⟩
  cases is
  rw [Shape.count_cons]
  push_cast
  rw [mul_left_comm, mul_comm]
  exact step.trans (ends.mul_right _)

end Axes

/-- Axes that fold into one act as one. -/
private theorem foldedStride_spec {n : Int} {shape : Shape} {strides : Strides}
    {folded : Option (Int64 × Int64)} (rank : strides.length = shape.length)
    (steps : ∀ axis < shape.length, StepAt n shape strides axis)
    (found : foldedStride shape strides = some folded) : Folds n shape strides folded := by
  -- by induction on the axes from the innermost out, as the fold is computed
  induction shape generalizing strides folded with
  | nil =>
    cases List.length_eq_zero_iff.mp rank
    cases found
    exact ⟨⟨rfl, fun index _ => elementOffset_nil_left index⟩, nofun⟩
  | cons extent inner ih => cases strides with
    | nil => cases rank
    | cons stride strides =>
      obtain ⟨inside, below, cases⟩ := foldedStride_cons found
      have step : (stride * extent.toInt64).toInt ≡ stride.toInt * extent.toNat [ZMOD n] :=
        steps 0 (Nat.succ_pos _)
      have folds := ih (Nat.succ.inj rank)
        (fun axis there => steps (axis + 1) (Nat.succ_lt_succ there)) below
      rcases cases with ⟨one, rfl⟩ | ⟨-, rfl, rfl⟩ | ⟨-, row, rfl, rfl⟩
      · exact folds.skip one
      · exact folds.first step
      · exact folds.next step

/-- Axes that fold into one put each index at its place times the stride of the fold. The steps of the
axes without another axis of more than one position outside are of no consequence. -/
private theorem foldedStride_spaced {n : Int} {shape : Shape} {strides : Strides}
    {folded : Option (Int64 × Int64)} (rank : strides.length = shape.length)
    (steps : ∀ axis < shape.length, ∀ outer < axis, shape.getD outer 0 ≠ 1 →
      StepAt n shape strides axis)
    (found : foldedStride shape strides = some folded) :
    Spaced n shape strides (folded.map Prod.fst) := by
  induction shape generalizing strides folded with
  | nil =>
    cases List.length_eq_zero_iff.mp rank
    cases found
    exact ⟨rfl, fun index _ => elementOffset_nil_left index⟩
  | cons extent inner ih => cases strides with
    | nil => cases rank
    | cons stride strides =>
      obtain ⟨inside, below, cases⟩ := foldedStride_cons found
      -- all steps inside matter to an axis with more than one position
      have folds (many : extent ≠ 1) : Folds n inner strides inside :=
        foldedStride_spec (Nat.succ.inj rank)
          (fun axis there => steps (axis + 1) (Nat.succ_lt_succ there) 0 (Nat.succ_pos _) many) below
      rcases cases with ⟨one, rfl⟩ | ⟨many, rfl, rfl⟩ | ⟨many, row, rfl, rfl⟩
      · refine Spaced.skip (ih (Nat.succ.inj rank) (fun axis there outer outside wide => ?_) below) one
        exact steps (axis + 1) (Nat.succ_lt_succ there) (outer + 1) (Nat.succ_lt_succ outside) wide
      · exact Spaced.first (folds many).1
      · exact Spaced.next (folds many).1 ((folds many).2 row stride rfl)

/-- One more axis folds where it is a single position or meets the step of the axes inside. -/
private theorem foldedStride_next {extent : UInt64} {shape : Shape} (stride : Int64) {strides : Strides}
    {inner : Option (Int64 × Int64)} (below : foldedStride shape strides = some inner)
    (meets : extent ≠ 1 → ∀ row expected, inner = some (row, expected) → stride = expected) :
    ∃ folded, foldedStride (extent :: shape) (stride :: strides) = some folded ∧
      (extent = 1 ∧ folded = inner ∨
        extent ≠ 1 ∧ ∃ row, folded = some (row, stride * extent.toInt64)) := by
  rw [foldedStride, below, Option.bind_eq_bind, Option.bind_some]
  by_cases one : extent = 1
  · exact ⟨inner, if_pos one, .inl ⟨one, rfl⟩⟩
  · rw [if_neg one]
    cases inner with
    | none => exact ⟨_, rfl, .inr ⟨one, stride, rfl⟩⟩
    | some pair =>
      obtain ⟨row, expected⟩ := pair
      exact ⟨_, if_pos (meets one row expected rfl), .inr ⟨one, row, rfl⟩⟩

/-- Axes fold where all indices lie at their place times one distance. -/
private theorem foldedStride_of_offsets {shape : Shape} {strides : Strides} {distance : Int}
    (rank : strides.length = shape.length) (full : shape.count ≠ 0)
    (equal : ∀ index, shape.Within index →
      elementOffset strides index ≡ shape.placeOf index * distance [ZMOD 2 ^ 64]) :
    ∃ folded, foldedStride shape strides = some folded ∧
      ∀ row step, folded = some (row, step) →
        step.toInt ≡ distance * shape.count [ZMOD 2 ^ 64] := by
  induction shape generalizing strides with
  | nil => exact ⟨none, rfl, nofun⟩
  | cons extent inner ih => cases strides with
    | nil => cases rank
    | cons stride strides =>
      have stride_eq (two : extent ≠ 1) := Shape.stride_of_offsets two full equal
      rw [Shape.count_cons, Nat.mul_ne_zero_iff] at full
      obtain ⟨folds, below, met⟩ := ih (Nat.succ.inj rank) full.2 fun rest inside =>
        Shape.offsets_inner (Nat.pos_of_ne_zero full.1) equal inside
      obtain ⟨folded, fold, cases⟩ := foldedStride_next stride below
        fun two row expected is => by
          have same := (stride_eq two).trans (met row expected is).symm
          exact Int64.toInt_inj.mp
            (toInt_eq_of_modEq expected.le_toInt expected.toInt_lt same)
      refine ⟨folded, fold, fun row step is => ?_⟩
      rcases cases with ⟨one, rfl⟩ | ⟨two, other, rfl⟩
      · rw [Shape.count_cons, one]
        simpa using met row step is
      · cases is
        refine (toInt_step_modEq stride extent).trans ?_
        rw [Shape.count_cons]
        push_cast
        rw [mul_left_comm, mul_comm]
        exact (stride_eq two).mul_left _

/-- Axes without gaps fold, and with them the axes outside of the innermost one. -/
private theorem foldedStride_of_packed {lead : Shape} {strides : Strides} {columns : UInt64}
    {stride step : Int64} (rank : strides.length = lead.length)
    (packed : Shape.packedStep (lead ++ [columns]) (strides ++ [stride]) = some step) :
    (columns = 1 ∨ stride = 1) ∧ ∃ folded, foldedStride lead strides = some folded ∧
      ∀ row expected, folded = some (row, expected) → expected = step := by
  induction lead generalizing strides step with
  | nil =>
    cases List.length_eq_zero_iff.mp rank
    obtain ⟨unit, last, choice⟩ := Shape.packedStep_cons packed
    cases last
    exact ⟨choice.imp And.left And.left, none, rfl, nofun⟩
  | cons extent lead ih => cases strides with
    | nil => cases rank
    | cons outer strides =>
      obtain ⟨expected, inside, choice⟩ := Shape.packedStep_cons packed
      obtain ⟨dense, folds, below, met⟩ := ih (Nat.succ.inj rank) inside
      have meets (two : extent ≠ 1) : outer = expected ∧ step = expected * extent.toInt64 :=
        choice.resolve_left fun one => two one.1
      obtain ⟨folded, fold, cases⟩ := foldedStride_next outer below
        fun two row met_step is => (meets two).1.trans (met row met_step is).symm
      refine ⟨dense, folded, fold, fun row reached is => ?_⟩
      rcases cases with ⟨one, rfl⟩ | ⟨two, other, rfl⟩
      · rw [met row reached is]
        rcases choice with ⟨-, same⟩ | ⟨-, grown⟩
        · exact same.symm
        · rw [grown, one]
          exact (Int64.mul_one expected).symm
      · cases is
        rw [(meets two).1, (meets two).2]

/-- The rows of a tensor, with its innermost axis split off. -/
private theorem rowStride_split {v : View} {lead : Shape} {columns : UInt64}
    (shape : v.shape = lead ++ [columns]) (rank : v.strides.length = v.shape.length) :
    ∃ strides stride, v.strides = strides ++ [stride] ∧ strides.length = lead.length ∧
      ∀ row, v.rowStride? = some row ↔ (1 < columns → stride = 1) ∧
        ∃ folded, foldedStride lead strides = some folded ∧
          (folded.map Prod.fst).getD columns.toInt64 = row := by
  obtain ⟨strides, stride, split⟩ : ∃ strides stride, v.strides = strides ++ [stride] := by
    rcases List.eq_nil_or_concat v.strides with none | ⟨strides, stride, split⟩
    · rw [none, shape] at rank
      simp at rank
    · exact ⟨strides, stride, by rw [split, List.concat_eq_append]⟩
  have length : strides.length = lead.length := by simpa [split, shape] using rank
  have last : v.rank - 1 = lead.length := by simp [View.rank, shape]
  have extent : v.extent lead.length = columns := by simp [View.extent, shape]
  have unit : v.stride lead.length = stride := by simp [View.stride, split, ← length]
  have leading : v.shape.take lead.length = lead := by simp [shape]
  have outer : v.strides.take lead.length = strides := by simp [split, ← length]
  refine ⟨strides, stride, split, length, fun row => ?_⟩
  rw [rowStride?, last, extent, unit, leading, outer]
  split
  · next gaps =>
    simp only [Bool.and_eq_true, decide_eq_true_eq, bne_iff_ne] at gaps
    constructor
    · intro found
      cases found
    · rintro ⟨unit, -⟩
      exact absurd (unit gaps.1) gaps.2
  · next dense =>
    have unit : 1 < columns → stride = 1 := by simpa using dense
    simp only [Option.bind_eq_bind, Option.bind_eq_some_iff]
    constructor
    · rintro ⟨folded, fold, choice⟩
      refine ⟨unit, folded, fold, ?_⟩
      cases folded <;> simpa using choice
    · rintro ⟨-, folded, fold, choice⟩
      refine ⟨folded, fold, ?_⟩
      cases folded <;> simpa using choice

/-- Rows that lie at equal distances are found at their place times the distance. -/
theorem rowStride_spec {n : Int} {v : View} {lead : Shape} {columns : UInt64} {row : Int64}
    (shape : v.shape = lead ++ [columns]) (rank : v.strides.length = v.shape.length)
    (steps : ∀ axis < lead.length, ∀ outer < axis, lead.getD outer 0 ≠ 1 →
      StepAt n lead v.strides axis)
    (found : v.rowStride? = some row) {index : Index} {p : Nat} (inside : lead.Within index)
    (below : p < columns.toNat) :
    elementOffset v.strides (index ++ [p]) ≡ lead.placeOf index * row.toInt + p [ZMOD n] := by
  obtain ⟨strides, stride, split, length, rows⟩ := rowStride_split shape rank
  obtain ⟨dense, folded, fold, choice⟩ := (rows row).mp found
  have spaced := foldedStride_spaced length (fun axis there outer outside wide => by
    have leading : v.strides.getD axis 0 = strides.getD axis 0 := by
      rw [split, List.getD_eq_getElem?_getD, List.getElem?_append_left (by rwa [length]),
        List.getD_eq_getElem?_getD]
    have step := steps axis there outer outside wide
    rwa [StepAt, leading] at step) fold
  -- the innermost axis is dense, or has no second position
  have step : (p : Int) * stride.toInt = p := by
    rcases Nat.eq_zero_or_pos p with zero | some
    · rw [zero]
      simp
    · have many : 1 < columns := by
        rw [UInt64.lt_iff_toNat_lt]
        exact Nat.lt_of_le_of_lt some below
      rw [dense many]
      exact mul_one _
  rw [split, elementOffset_append (length.trans inside.length_eq.symm), step]
  cases distance : folded.map Prod.fst with
  | none =>
    rw [distance] at spaced
    have first := Shape.placeOf_lt inside
    rw [spaced.1, Nat.lt_one_iff] at first
    rw [spaced.2 index inside, first]
    simp
  | some distance =>
    rw [distance] at spaced choice
    cases choice
    exact (spaced index inside).add_right _

/-- Every tensor whose rows lie at equal distances has its row stride found. -/
theorem exists_rowStride_of_offsets {v : View} {lead : Shape} {columns : UInt64} {distance : Int}
    (shape : v.shape = lead ++ [columns]) (rank : v.strides.length = v.shape.length)
    (full : v.shape.count ≠ 0)
    (equal : ∀ index, lead.Within index → ∀ p < columns.toNat,
      elementOffset v.strides (index ++ [p]) ≡ lead.placeOf index * distance + p [ZMOD 2 ^ 64]) :
    ∃ row, v.rowStride? = some row := by
  obtain ⟨strides, stride, split, length, rows⟩ := rowStride_split shape rank
  rw [shape, Shape.count_append, Nat.mul_ne_zero_iff] at full
  have first := Shape.within_indexAt (Nat.pos_of_ne_zero full.1)
  have offset (index : Index) (inside : lead.Within index) (p : Nat) :
      elementOffset v.strides (index ++ [p]) = elementOffset strides index + p * stride.toInt := by
    rw [split, elementOffset_append (length.trans inside.length_eq.symm)]
  have front (index : Index) (inside : lead.Within index) :
      elementOffset strides index ≡ lead.placeOf index * distance [ZMOD 2 ^ 64] := by
    have start := equal index inside 0 (Nat.pos_of_ne_zero full.2)
    rw [offset index inside] at start
    simpa using start
  obtain ⟨folded, fold, -⟩ := foldedStride_of_offsets length full.1 front
  refine ⟨_, (rows _).mpr ⟨fun many => ?_, folded, fold, rfl⟩⟩
  -- neighbours on the innermost axis are one apart
  have next := equal _ first 1 (UInt64.lt_iff_toNat_lt.mp many)
  rw [offset _ first] at next
  have apart := next.sub (front _ first)
  simp only [Nat.cast_one, one_mul, add_sub_cancel_left] at apart
  exact Int64.toInt_inj.mp (toInt_eq_of_modEq (by decide) (by decide) apart)

/-- A tensor without gaps is read as a matrix where it is. -/
theorem exists_rowStride_of_isContiguous {v : View} {lead : Shape} {columns : UInt64}
    (shape : v.shape = lead ++ [columns]) (rank : v.strides.length = v.shape.length)
    (packed : v.isContiguous = true) : ∃ row, v.rowStride? = some row := by
  obtain ⟨strides, stride, split, length, rows⟩ := rowStride_split shape rank
  obtain ⟨step, found⟩ := Option.isSome_iff_exists.mp packed
  rw [shape, split] at found
  obtain ⟨dense, folded, fold, -⟩ := foldedStride_of_packed length found
  refine ⟨_, (rows _).mpr ⟨fun many => dense.resolve_left ?_, folded, fold, rfl⟩⟩
  rintro rfl
  exact absurd many (by decide)

end View

end QuantLinear
