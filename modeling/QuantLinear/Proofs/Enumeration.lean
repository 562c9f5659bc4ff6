import QuantLinear.Shape.Counters
import QuantLinear.Proofs.RowMajor

/-!
The loop over an index space meets each index once, in the order of the places.

Counters within the extents move on to the next place, and start again from the last one
(`moved_advance`). So the loop runs its step at the places from where it stands to the end
(`eachFrom_eq_forM`), and from the start at all of them (`eachIndex_eq_forM`). The order of the places
is the lexicographic order of the indices (`pairwise_indices`).
-/

namespace QuantLinear

private theorem Counters.index_cons (counter : UInt64) (counters : Counters) :
    Counters.index (counter :: counters) = counter.toNat :: counters.index := rfl

namespace Shape

private theorem index_start (shape : Shape) : shape.start.index = shape.indexAt 0 := by
  induction shape with
  | nil => rfl
  | cons extent inner ih =>
    rw [indexAt, Nat.zero_div, Nat.zero_mod, ← ih]
    rfl

private theorem within_start {shape : Shape} (some : 0 < shape.count) :
    shape.Within shape.start.index := by
  rw [index_start]
  exact within_indexAt some

private theorem placeOf_start {shape : Shape} (some : 0 < shape.count) :
    shape.placeOf shape.start.index = 0 := by rw [index_start, placeOf_indexAt some]

/-- What a move comes to: the counters stand one place further on, or they stood at the last place
and have started again. -/
inductive Moved (shape : Shape) (counters : Counters) : Counters × Bool → Prop where
  | further {next : Counters} (inside : shape.Within next.index)
      (place : shape.placeOf next.index = shape.placeOf counters.index + 1) :
      Moved shape counters (next, false)
  | again (last : shape.placeOf counters.index + 1 = shape.count) :
      Moved shape counters (shape.start, true)

theorem moved_advance {shape : Shape} {counters : Counters}
    (inside : shape.Within counters.index) : Moved shape counters (shape.advance counters) := by
  -- by induction on the axes, since a move starts from the last one
  induction shape generalizing counters with
  | nil => cases counters with
    | nil => exact .again rfl
    | cons counter counters => exact inside.elim
  | cons extent inner ih => cases counters with
    | nil => exact inside.elim
    | cons counter counters =>
      have below : counter.toNat < extent.toNat := inside.1
      have up := toNat_counter_add_one (UInt64.lt_iff_toNat_lt.mpr below)
      have moved := ih inside.2
      rw [advance]
      generalize advance inner counters = move at moved
      cases moved with
      | further within place =>
        refine .further ⟨below, within⟩ ?_
        rw [Counters.index_cons, Counters.index_cons, placeOf_cons, placeOf_cons, place, Nat.add_assoc]
      | again last =>
        -- the inner counters have started again: this one goes up, or was at its end as well
        have some : 0 < count inner := last ▸ Nat.succ_pos _
        simp only
        split
        · next more =>
          refine .further ⟨UInt64.lt_iff_toNat_lt.mp more, within_start some⟩ ?_
          rw [Counters.index_cons, Counters.index_cons, placeOf_cons, placeOf_cons, placeOf_start some,
            up, Nat.succ_mul, ← last]
          rfl
        · next full =>
          refine .again ?_
          have extent_eq : extent.toNat = counter.toNat + 1 := by
            rw [UInt64.lt_iff_toNat_lt, up] at full
            omega
          rw [Counters.index_cons, placeOf_cons, count_cons, extent_eq, Nat.succ_mul, ← last]
          rfl

private theorem drop_placeOf {shape : Shape} {index : Index} (inside : shape.Within index) :
    shape.indices.drop (shape.placeOf index) =
      index :: shape.indices.drop (shape.placeOf index + 1) := by
  obtain ⟨bound, same⟩ := List.getElem?_eq_some_iff.mp (getElem?_indices inside)
  rw [List.drop_eq_getElem_cons bound, same]

private theorem indexAt_lex {shape : Shape} {place later : Nat} (ordered : place < later)
    (below : later < shape.count) :
    List.Lex (· < ·) (shape.indexAt place) (shape.indexAt later) := by
  induction shape generalizing place later with
  | nil =>
    rw [count_nil] at below
    omega
  | cons extent inner ih =>
    rw [count_cons] at below
    have some : 0 < count inner := Nat.pos_of_lt_mul_left below
    rw [indexAt, indexAt, List.cons_lex_cons_iff]
    rcases Nat.lt_or_eq_of_le (Nat.div_le_div_right (c := count inner) ordered.le) with more | same
    · exact .inl more
    · refine .inr ⟨same, ih ?_ (Nat.mod_lt _ some)⟩
      have first := Nat.div_add_mod place (count inner)
      have second := Nat.div_add_mod later (count inner)
      rw [same] at first
      omega

theorem pairwise_indices (shape : Shape) : shape.indices.Pairwise (List.Lex (· < ·)) := by
  rw [indices_eq_positions, positions_eq_map_indexAt, List.pairwise_map]
  exact List.pairwise_lt_range.imp_of_mem fun _ later ordered =>
    indexAt_lex ordered (List.mem_range.mp later)

section Loop

variable {m : Type → Type} [Monad m]

/-- The loop runs its step at the places from where its counters stand to the end. -/
theorem eachFrom_eq_forM {shape : Shape} {counters : Counters} (step : Index → m Unit)
    (inside : shape.Within counters.index) :
    shape.eachFrom step counters =
      (shape.indices.drop (shape.placeOf counters.index)).forM step := by
  -- by induction on the moves that are left
  induction counters using eachFrom.induct shape with
  | case1 counters ih =>
    have moved := moved_advance inside
    rw [eachFrom, drop_placeOf inside, List.forM]
    -- the step where the counters stand comes first on both sides
    congr 1
    funext _
    split
    · next next same =>
      rw [same] at moved
      cases moved with
      | further within place => rw [ih next same within, place]
    · next carried =>
      rw [carried] at moved
      cases moved with
      | again last =>
        rw [last, ← length_positions, ← indices_eq_positions, List.drop_length]
        rfl

theorem eachIndex_eq_forM (shape : Shape) (step : Index → m Unit) :
    shape.eachIndex step = shape.indices.forM step := by
  rw [eachIndex]
  split
  · next empty =>
    rw [indices, if_pos empty]
    rfl
  · next full =>
    have some := count_pos fun member => full (List.contains_iff_mem.mpr member)
    rw [eachFrom_eq_forM step (within_start some), placeOf_start some, List.drop_zero]

/-- The loop over an index space ends, since each move of its counters but the last leaves them less to
go. It runs its step at the indices with a position within each axis, at each once, in lexicographic
order, and as often as there are elements: never where an axis has no extent, and once, at the empty
index, where there is no axis. -/
theorem eachIndex_enumerates (shape : Shape) (step : Index → m Unit) :
    (∀ counters next, shape.advance counters = (next, false) →
      shape.headroom next < shape.headroom counters) ∧
    shape.eachIndex step = shape.indices.forM step ∧
    (∀ index, index ∈ shape.indices ↔ shape.Within index) ∧ shape.indices.Nodup ∧
    shape.indices.Pairwise (List.Lex (· < ·)) ∧ shape.indices.length = shape.count ∧
    (0 ∈ shape → shape.indices = []) ∧ (shape = [] → shape.indices = [[]]) := by
  refine ⟨fun _ _ => headroom_advance, eachIndex_eq_forM shape step, mem_indices shape,
    nodup_indices shape, pairwise_indices shape, ?_, fun empty => ?_, ?_⟩
  · rw [indices_eq_positions, length_positions]
  · rw [indices_eq_positions, positions_eq_nil_of_mem_zero empty]
  · rintro rfl
    rfl

/-- Three axes, an axis without extent, and no axis. -/
theorem eachIndex_enumerates_threeAxes :
    let log (index : Index) : StateM (List Index) Unit := modify (· ++ [index])
    Within [2, 1, 3] [1, 0, 2] ∧ 0 ∈ ([2, 0, 3] : Shape) ∧
    (eachIndex [2, 1, 3] log).run [] =
      ((), [[0, 0, 0], [0, 0, 1], [0, 0, 2], [1, 0, 0], [1, 0, 1], [1, 0, 2]]) ∧
    (eachIndex [2, 0, 3] log).run [] = ((), []) ∧ (eachIndex [] log).run [] = ((), [[]]) := by
  intro log
  obtain ⟨-, three, member, -⟩ := eachIndex_enumerates [2, 1, 3] log
  obtain ⟨-, two, -, -, -, -, empty, -⟩ := eachIndex_enumerates [2, 0, 3] log
  obtain ⟨-, none, -, -, -, -, -, only⟩ := eachIndex_enumerates [] log
  have zero : 0 ∈ ([2, 0, 3] : Shape) := by decide
  refine ⟨(member _).mp (by decide), zero, ?_, ?_, ?_⟩
  · rw [three]
    rfl
  · rw [two, empty zero]
    rfl
  · rw [none, only rfl]
    rfl

end Loop

end Shape

end QuantLinear
