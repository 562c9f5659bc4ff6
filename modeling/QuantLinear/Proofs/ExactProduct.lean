import Mathlib.Algebra.BigOperators.Intervals
import Mathlib.Algebra.BigOperators.Ring.Finset
import QuantLinear.Proofs.GroupScale
import QuantLinear.Proofs.PackedReads

/-!
The products that the multiplying kernels compute in exact arithmetic.

What a kernel stores at a position is an expression in the numbers of its operands, and the expression
is written for any type with zero, addition and multiplication. Single precision gives the word that is
stored; rational numbers give the sum of the products of the scaled numbers, each position of the
shared axis once, also where the kernel takes the scales out of its sums and cuts the axis into blocks
of which the last is narrower.
-/

namespace QuantLinear

/-- A sum from the left is the sum over its range. -/
private theorem accumulate_eq_sum {α : Type} [AddCommMonoid α] (start : α) {lo hi : Nat}
    (ordered : lo ≤ hi)
    (term : Nat → α) : accumulate start lo hi term = start + ∑ i ∈ Finset.Ico lo hi, term i := by
  refine forRange_induction (fun (i : Nat) total => total = start + ∑ p ∈ Finset.Ico lo i, term p)
    ordered start _ (by simp) ?_
  intro i total above _ reached
  rw [reached, add_assoc, ← Finset.sum_Ico_succ_top above]

namespace Kernel

section Exact

variable {α : Type} [CommSemiring α]

/-- The scales of a row and of a column may be taken into the sum. -/
private theorem scaledEntry_eq_sum (depth : Nat) (left right : Nat → α) (rowScale columnScale : α) :
    scaledEntry depth left right rowScale columnScale =
      ∑ p ∈ Finset.range depth, left p * rowScale * (right p * columnScale) := by
  rw [scaledEntry, accumulate_eq_sum 0 (Nat.zero_le _), zero_add, ← Finset.range_eq_Ico,
    Finset.sum_mul, Finset.sum_mul]
  exact Finset.sum_congr rfl fun p _ => by ring

private theorem packedEntry_eq_sum (depth : Nat) (left weight : Nat → α) :
    packedEntry depth left weight = ∑ p ∈ Finset.range depth, left p * weight p := by
  rw [packedEntry, accumulate_eq_sum 0 (Nat.zero_le _), zero_add, ← Finset.range_eq_Ico]

/-- Within a block the scales stay the same, and may be taken into its sum. -/
private theorem accumulate_block {size block hi : Nat} (above : block * size ≤ hi)
    (within : hi ≤ block * size + size) (left right leftScale rightScale : Nat → α) :
    accumulate 0 (block * size) hi (fun p => left p * right p) * leftScale block *
        rightScale block =
      ∑ p ∈ Finset.Ico (block * size) hi,
        left p * leftScale (p / size) * (right p * rightScale (p / size)) := by
  rw [accumulate_eq_sum 0 above, zero_add, Finset.sum_mul, Finset.sum_mul]
  refine Finset.sum_congr rfl fun p member => ?_
  obtain ⟨first, last⟩ := Finset.mem_Ico.mp member
  have mine : p / size = block := by
    apply Nat.div_eq_of_lt_le first
    rw [Nat.succ_mul]
    omega
  rw [mine]
  ring

/-- The blocks of an axis meet each of its positions once, with the scales of its block. -/
private theorem blockEntry_eq_sum {depth size : UInt64} (some : size ≠ 0)
    (fits : depth.toNat + size.toNat - 1 < 2 ^ 64) (left right leftScale rightScale : Nat → α) :
    blockEntry depth size (ceilDiv depth size).toNat left right leftScale rightScale =
      ∑ p ∈ Finset.range depth.toNat,
        left p * leftScale (p / size.toNat) * (right p * rightScale (p / size.toNat)) := by
  -- the blocks before one have met the positions before its first one
  have met := forRange_induction
    (fun (block : Nat) total =>
      total = ∑ p ∈ Finset.range (min depth.toNat (block * size.toNat)),
        left p * leftScale (p / size.toNat) * (right p * rightScale (p / size.toNat)))
    (Nat.zero_le (ceilDiv depth size).toNat) (0 : α)
    (fun total block =>
      let chunk := chunkRange depth size (UInt64.ofNat block)
      total +
        accumulate 0 chunk.1 chunk.2 (fun p => left p * right p) * leftScale block *
          rightScale block)
    (by simp) ?_
  · rw [Nat.min_eq_left (le_ceilDiv_mul some fits)] at met
    exact met
  · intro block total _ below reached
    obtain ⟨range, start⟩ := chunkRange_eq some fits below
    have ordered : block * size.toNat ≤ min depth.toNat (block * size.toNat + size.toNat) := by omega
    simp only [range]
    rw [accumulate_block ordered (Nat.min_le_right ..), reached, Nat.min_eq_right start.le,
      Nat.succ_mul, Finset.range_eq_Ico, Finset.range_eq_Ico,
      Finset.sum_Ico_consecutive _ (Nat.zero_le _) ordered]

end Exact

/-- How a kernel fills a target with numbers, row by row: the states are the memories that it finds
before each position, and before each row. -/
structure Fills (before : Memory) (target : View) (kind : FloatKind) (rows columns : UInt64)
    (number : Nat → Nat → Binary32) (state : Nat → Nat → Memory) (after : Memory) : Prop where
  first : state 0 0 = before
  position : ∀ i < rows.toNat, ∀ j < columns.toNat,
    state i (j + 1) = (state i j).setNumber target kind [i, j] (number i j)
  row : ∀ i < rows.toNat, state (i + 1) 0 = state i columns.toNat
  last : after = state rows.toNat 0

/-- The memory that two nested loops over a matrix find before a position. -/
def loopState (step : Memory → Nat → Memory → Nat → Memory) (columns : UInt64) (mem : Memory)
    (row column : Nat) : Memory :=
  let first := forRange 0 row mem fun first row => forRange 0 columns.toNat first (step first row)
  forRange 0 column first (step first row)

private theorem evolves_loopState {changed : List Nat} {step : Memory → Nat → Memory → Nat → Memory}
    (each : ∀ first row mid column, Memory.Evolves changed mid (step first row mid column))
    (columns : UInt64) (mem : Memory) (row column : Nat) :
    mem.Evolves changed (loopState step columns mem row column) :=
  (Memory.evolves_forRange (fun _ _ => Memory.evolves_forRange (each _ _) _) _).same
    (Memory.evolves_forRange (each _ _) _)

namespace Fills

variable {before after : Memory} {target : View} {kind : FloatKind} {rows columns : UInt64}
  {number : Nat → Nat → Binary32} {state : Nat → Nat → Memory}

/-- Loops whose steps store the numbers fill the target. -/
private theorem of_loops {step : Memory → Nat → Memory → Nat → Memory}
    (each : ∀ i < rows.toNat, ∀ j < columns.toNat,
      step (loopState step columns before i 0) i (loopState step columns before i j) j =
        (loopState step columns before i j).setNumber target kind [i, j] (number i j)) :
    Fills before target kind rows columns number (loopState step columns before)
      (forRange 0 rows.toNat before fun first row =>
        forRange 0 columns.toNat first (step first row)) where
  first := rfl
  position i inRows j inColumns := by
    rw [← each i inRows j inColumns]
    exact forRange_succ ..
  row i _ := forRange_succ ..
  last := rfl

/-- Filling changes the target alone. -/
private theorem rewrites (fills : Fills before target kind rows columns number state after)
    (shape : target.shape = [rows, columns]) {i j : Nat} (inRows : i < rows.toNat)
    (inColumns : j ≤ columns.toNat) : before.Rewrites [target] (state i j) := by
  -- along a row, from the state that it began with
  have along {i : Nat} (inRows : i < rows.toNat) (started : before.Rewrites [target] (state i 0))
      (j : Nat) (inColumns : j ≤ columns.toNat) : before.Rewrites [target] (state i j) := by
    induction j with
    | zero => exact started
    | succ j ih =>
      rw [fills.position i inRows j inColumns]
      apply (ih (Nat.le_of_succ_le inColumns)).trans
      apply Memory.rewrites_store
      rw [shape]
      exact Shape.within_of_lt inRows inColumns
  have down (i : Nat) (inRows : i < rows.toNat) : before.Rewrites [target] (state i 0) := by
    induction i with
    | zero =>
      rw [fills.first]
      exact .refl _ _
    | succ i ih =>
      have above := Nat.lt_of_succ_lt inRows
      rw [fills.row i above]
      exact along above (ih above) _ le_rfl
  exact along inRows (down i inRows) j inColumns

private theorem after_eq (fills : Fills before target kind rows columns number state after) :
    after = forRange 0 rows.toNat before fun first i =>
      forRange 0 columns.toNat first fun mid j =>
        mid.setNumber target kind [i, j] (number i j) := by
  have reached := forRange_induction (fun (i : Nat) mid => mid = state i 0)
    (Nat.zero_le rows.toNat) before
    (fun first i => forRange 0 columns.toNat first fun mid j =>
      mid.setNumber target kind [i, j] (number i j)) fills.first.symm ?_
  · rw [reached, fills.last]
  · intro i first _ inRows started
    rw [fills.row i inRows]
    refine forRange_induction (fun (j : Nat) mid => mid = state i j) (Nat.zero_le _) first _ started ?_
    intro j mid _ inColumns here
    rw [fills.position i inRows j inColumns, here]

/-- A target whose elements are apart holds all the numbers in the end. -/
theorem load (fills : Fills before target kind rows columns number state after)
    (separate : before.Separate target) (shape : target.shape = [rows, columns])
    (float : rows ≠ 0 → columns ≠ 0 → target.kind = .float kind) {i j : Nat}
    (inRows : i < rows.toNat) (inColumns : j < columns.toNat) :
    after.load target [i, j] = kind.encode (number i j) := by
  have known : target.kind = .float kind := by
    apply float
    · rintro rfl
      contradiction
    · rintro rfl
      contradiction
  rw [fills.after_eq]
  exact (Memory.Filled.matrix separate shape (fun i j => kind.encode (number i j))
    (fun _ i mid j => mid.setNumber target kind [i, j] (number i j))
    (fun _ _ => by rw [known]; exact kind.encode_lt _)
    (fun _ _ _ _ _ _ _ _ => rfl)).2 i inRows j inColumns

end Fills

/-- A matrix that a kernel stores, as an expression in the numbers that it reads. In single precision
the expression gives the numbers that are stored one after another, and in rational numbers it gives
the sums. -/
structure Computes (before : Memory) (target : View) (kind : FloatKind) (rows columns : UInt64)
    (entry : ∀ {α : Type} [Zero α] [Add α] [Mul α], (Binary32 → α) → Nat → Nat → α)
    (sum : Nat → Nat → ℚ) (state : Nat → Nat → Memory) (after : Memory) : Prop where
  exact : ∀ i < rows.toNat, ∀ j < columns.toNat, entry Binary32.value i j = sum i j
  stored : Fills before target kind rows columns (entry id) state after
  /-- Elements that are apart hold all the numbers in the end. -/
  held : before.Separate target → ∀ i < rows.toNat, ∀ j < columns.toNat,
    after.load target [i, j] = kind.encode (entry id i j)

/-- A kernel that fills a target of its shape and kind leaves the numbers there. -/
private theorem Fills.computes {before after : Memory} {target : View} {kind : FloatKind}
    {rows columns : UInt64}
    {entry : ∀ {α : Type} [Zero α] [Add α] [Mul α], (Binary32 → α) → Nat → Nat → α}
    {sum : Nat → Nat → ℚ} {state : Nat → Nat → Memory}
    (fills : Fills before target kind rows columns (entry id) state after)
    (shape : target.shape = [rows, columns])
    (float : rows ≠ 0 → columns ≠ 0 → target.kind = .float kind)
    (exact : ∀ i j, entry Binary32.value i j = sum i j) :
    Computes before target kind rows columns entry sum state after where
  exact i _ j _ := exact i j
  stored := fills
  held separate _ inRows _ inColumns := fills.load separate shape float inRows inColumns

section Scaled

variable {target left leftScale right rightScale : View} {rows depth columns : UInt64}
  {kind leftKind rightKind : FloatKind} {before after : Memory} {state : Nat → Nat → Memory}

/-- What a scaled product computes. It reads the scale of a row where it comes to the row, and the
scale of a column at each position. -/
structure ScaledExact (before : Memory) (target left leftScale right rightScale : View)
    (rows depth columns : UInt64) (kind leftKind rightKind : FloatKind)
    (state : Nat → Nat → Memory) (after : Memory) : Prop where
  fit : Multiplies target left right rows depth columns
  leftCount : leftScale.numel = 1 ∨ leftScale.numel = rows
  rightCount : rightScale.numel = 1 ∨ rightScale.numel = columns
  kinds : rows ≠ 0 → columns ≠ 0 → leftScale.kind = .float leftKind ∧
    rightScale.kind = .float rightKind ∧ target.kind = .float kind
  entries :
    let a (i p : Nat) := before.number left .f8 [i, p]
    let b (p j : Nat) := before.number right .f8 [p, j]
    let aScale (i : Nat) := (state i 0).number leftScale leftKind (servingIndex leftScale i)
    let bScale (i j : Nat) := (state i j).number rightScale rightKind (servingIndex rightScale j)
    Computes before target kind rows columns
      (fun read i j => scaledEntry depth.toNat (fun p => read (a i p)) (fun p => read (b p j))
        (read (aScale i)) (read (bScale i j)))
      (fun i j => ∑ p ∈ Finset.range depth.toNat,
        (a i p).value * (aScale i).value * ((b p j).value * (bScale i j).value)) state after
  /-- Scales that lie apart from the target are those that were there before. -/
  kept : ∀ scale, target.Disjoint scale → ∀ i < rows.toNat, ∀ j < columns.toNat, ∀ kind index,
    scale.shape.Within index → (state i j).number scale kind index = before.number scale kind index

/-- The loops of a scaled product. The kinds of what has no elements are not asked for. -/
private theorem runScaledProduct_loops
    (ran : runScaledProduct target left leftScale right rightScale before = .ok after) :
    ∃ kind leftKind rightKind, (left.extent 0 ≠ 0 → right.extent 1 ≠ 0 →
        leftScale.kind = .float leftKind ∧ rightScale.kind = .float rightKind ∧
          target.kind = .float kind) ∧
      after = forRange 0 (left.extent 0).toNat before fun first row =>
        forRange 0 (right.extent 1).toNat first fun mid column =>
          mid.setNumber target kind [row, column]
            (scaledEntry (left.extent 1).toNat ((before.numbers left .f8).entry row)
              ((before.numbers right .f8).entry · column) (first.scaleNumber leftScale leftKind row)
              (mid.scaleNumber rightScale rightKind column)) := by
  simp only [runScaledProduct, bind_eq_ok, require_eq_ok] at ran
  obtain ⟨-, -, -, -, -, -, -, -, ran⟩ := ran
  split at ran
  · next none =>
    refine ⟨.f32, .f32, .f32, fun some => absurd none some, ?_⟩
    rw [forRange_empty (.inl none)]
    exact (Except.ok.inj ran).symm
  · simp only [bind_eq_ok, ElementKind.decodable_eq_ok] at ran
    obtain ⟨leftKind, leftFloat, ran⟩ := ran
    split at ran
    · next none =>
      refine ⟨.f32, .f32, .f32, fun _ some => absurd none some, ?_⟩
      rw [forRange_empty (.inr none)]
      exact (Except.ok.inj ran).symm
    · simp only [bind_eq_ok, ElementKind.decodable_eq_ok, ElementKind.encodable_eq_ok,
        pure_eq_ok] at ran
      obtain ⟨rightKind, rightFloat, kind, targetFloat, same⟩ := ran
      exact ⟨kind, leftKind, rightKind, fun _ _ => ⟨leftFloat, rightFloat, targetFloat⟩, same.symm⟩

private theorem runScaledProduct_exact (leftHas : before.Has leftScale)
    (rightHas : before.Has rightScale)
    (ran : runScaledProduct target left leftScale right rightScale before = .ok after) :
    ∃ rows depth columns kind leftKind rightKind state, ScaledExact before target left leftScale right
      rightScale rows depth columns kind leftKind rightKind state after := by
  obtain ⟨fit, leftPacked, leftCount, rightPacked, rightCount⟩ := runScaledProduct_accepted ran
  obtain ⟨kind, leftKind, rightKind, kinds, same⟩ := runScaledProduct_loops ran
  let step (first : Memory) (row : Nat) (mid : Memory) (column : Nat) : Memory :=
    mid.setNumber target kind [row, column]
      (scaledEntry (left.extent 1).toNat ((before.numbers left .f8).entry row)
        ((before.numbers right .f8).entry · column) (first.scaleNumber leftScale leftKind row)
        (mid.scaleNumber rightScale rightKind column))
  let state := loopState step (right.extent 1) before
  -- the scales are still there, whatever the loops have stored until now
  have evolved (i j : Nat) : before.Evolves [target.storage] (state i j) :=
    evolves_loopState (fun _ _ _ _ => Memory.evolves_store ..) ..
  have rowScale {i : Nat} (inRows : i < (left.extent 0).toNat) :
      (state i 0).scaleNumber leftScale leftKind i =
        (state i 0).number leftScale leftKind (servingIndex leftScale i) :=
    scaleNumber_served (leftHas.later (evolved i 0)) leftPacked
      (leftCount.imp_right fun all => by rwa [all])
  have columnScale {i j : Nat} (inColumns : j < (right.extent 1).toNat) :
      (state i j).scaleNumber rightScale rightKind j =
        (state i j).number rightScale rightKind (servingIndex rightScale j) :=
    scaleNumber_served (rightHas.later (evolved i j)) rightPacked
      (rightCount.imp_right fun all => by rwa [all])
  have fills : Fills before target kind (left.extent 0) (right.extent 1) (fun i j =>
      scaledEntry (left.extent 1).toNat (fun p => before.number left .f8 [i, p])
        (fun p => before.number right .f8 [p, j])
        ((state i 0).number leftScale leftKind (servingIndex leftScale i))
        ((state i j).number rightScale rightKind (servingIndex rightScale j))) state after := by
    rw [same]
    apply Fills.of_loops
    intro i inRows j inColumns
    rw [← rowScale inRows, ← columnScale inColumns,
      ← scaledEntry_congr (fun p inDepth => fit.leftEntry before inRows inDepth)
        fun p inDepth => fit.rightEntry before inDepth inColumns]
  exact ⟨left.extent 0, left.extent 1, right.extent 1, kind, leftKind, rightKind, state, {
    fit := fit
    leftCount := leftCount
    rightCount := rightCount
    kinds := kinds
    entries := fills.computes fit.targetShape (fun rows columns => (kinds rows columns).2.2)
      fun _ _ => scaledEntry_eq_sum ..
    kept := fun scale apart i inRows j inColumns kind index inside =>
      (fills.rewrites fit.targetShape inRows inColumns.le).number (by simpa using apart) kind
        inside }⟩

end Scaled

section Blocks

variable {target left leftScale right rightScale : View} {blockRows blockColumns : UInt64}
  {before after : Memory}

/-- What a product in blocks computes. All scales are read before the first number is stored. -/
structure BlockExact (before : Memory) (target left leftScale right rightScale : View)
    (blockRows blockColumns rows depth columns : UInt64) (kind leftKind rightKind : FloatKind)
    (state : Nat → Nat → Memory) (after : Memory) : Prop where
  fit : Multiplies target left right rows depth columns
  leftScales : leftScale.shape = [rows, ceilDiv depth blockColumns]
  rightScales : rightScale.shape = [ceilDiv columns blockRows, ceilDiv depth blockColumns]
  kinds : rows ≠ 0 → columns ≠ 0 → target.kind = .float kind ∧
    (depth ≠ 0 → leftScale.kind = .float leftKind ∧ rightScale.kind = .float rightKind)
  /-- The blocks meet each position of the shared axis once. -/
  once : ∀ p < depth.toNat, ∃! block, block < (ceilDiv depth blockColumns).toNat ∧
    let chunk := chunkRange depth blockColumns (UInt64.ofNat block)
    chunk.1 ≤ p ∧ p < chunk.2
  entries :
    let a (i p : Nat) := before.number left .f8 [i, p]
    let b (p j : Nat) := before.number right .f8 [p, j]
    let aScale (i block : Nat) := before.number leftScale leftKind [i, block]
    let bScale (j block : Nat) := before.number rightScale rightKind [j / blockRows.toNat, block]
    Computes before target kind rows columns
      (fun read i j => blockEntry depth blockColumns (ceilDiv depth blockColumns).toNat
        (fun p => read (a i p)) (fun p => read (b p j)) (fun block => read (aScale i block))
        (fun block => read (bScale j block)))
      (fun i j => ∑ p ∈ Finset.range depth.toNat,
        (a i p).value * (aScale i (p / blockColumns.toNat)).value *
          ((b p j).value * (bScale j (p / blockColumns.toNat)).value)) state after

/-- The kind of a matrix that has been read is known where the matrix has elements. -/
private theorem kind_of_decodeMatrix {v : View} {mem : Memory} {matrix : Matrix Binary32}
    (read : mem.decodeMatrix v = .ok matrix) :
    ∃ kind, (v.extent 0 ≠ 0 → v.extent 1 ≠ 0 → v.kind = .float kind) ∧
      ∀ row < (v.extent 0).toNat, ∀ column < (v.extent 1).toNat,
        matrix.entry row column = mem.number v kind [row, column] := by
  have known : ∃ kind, v.extent 0 ≠ 0 → v.extent 1 ≠ 0 → v.kind = .float kind := by
    rw [Memory.decodeMatrix] at read
    split at read
    · next empty =>
      exact ⟨.f32, fun someRows someColumns => absurd empty (not_or.mpr ⟨someRows, someColumns⟩)⟩
    · simp only [bind_eq_ok, ElementKind.decodable_eq_ok] at read
      obtain ⟨kind, float, -⟩ := read
      exact ⟨kind, fun _ _ => float⟩
  obtain ⟨kind, float⟩ := known
  obtain ⟨other, same, entries⟩ := decodeMatrix_spec mem float
  cases read.symm.trans same
  exact ⟨kind, float, entries⟩

/-- The loops of a product in blocks. -/
private theorem runBlockScaledProduct_loops
    (ran : runBlockScaledProduct target left leftScale right rightScale blockRows blockColumns before =
      .ok after) :
    ∃ leftScales rightScales kind, before.decodeMatrix leftScale = .ok leftScales ∧
      before.decodeMatrix rightScale = .ok rightScales ∧
      (left.extent 0 ≠ 0 → right.extent 1 ≠ 0 → target.kind = .float kind) ∧
      after = forRange 0 (left.extent 0).toNat before fun first row =>
        forRange 0 (right.extent 1).toNat first fun mid column =>
          mid.setNumber target kind [row, column]
            (blockEntry (left.extent 1) blockColumns (ceilDiv (left.extent 1) blockColumns).toNat
              ((before.numbers left .f8).entry row) ((before.numbers right .f8).entry · column)
              (leftScales.entry row) (rightScales.entry (column / blockRows.toNat))) := by
  simp only [runBlockScaledProduct, bind_eq_ok, require_eq_ok] at ran
  obtain ⟨-, -, -, -, -, -, -, -, leftScales, leftRead, rightScales, rightRead, ran⟩ := ran
  refine ⟨leftScales, rightScales, ?_⟩
  split at ran
  · next empty =>
    refine ⟨.f32, leftRead, rightRead,
      fun rows columns => absurd empty (not_or.mpr ⟨rows, columns⟩), ?_⟩
    rw [forRange_empty empty]
    exact (Except.ok.inj ran).symm
  · simp only [bind_eq_ok, ElementKind.encodable_eq_ok, pure_eq_ok] at ran
    obtain ⟨kind, targetFloat, same⟩ := ran
    exact ⟨kind, leftRead, rightRead, fun _ _ => targetFloat, same.symm⟩

/-- Each position of an axis lies in one of its chunks and in no other one. -/
private theorem existsUnique_chunk {extent size : UInt64} (some : size ≠ 0)
    (fits : extent.toNat + size.toNat - 1 < 2 ^ 64) {p : Nat} (inside : p < extent.toNat) :
    ∃! block, block < (ceilDiv extent size).toNat ∧
      let chunk := chunkRange extent size (UInt64.ofNat block)
      chunk.1 ≤ p ∧ p < chunk.2 := by
  refine (existsUnique_congr fun block => and_congr_right fun below => ?_).mpr
    (existsUnique_inGroup some fits inside)
  rw [(chunkRange_eq some fits below).1, InGroup, Nat.succ_mul]

private theorem ceilDiv_ne_zero {extent size : UInt64} (some : size ≠ 0)
    (fits : extent.toNat + size.toNat - 1 < 2 ^ 64) (long : extent ≠ 0) : ceilDiv extent size ≠ 0 := by
  intro none
  have first := div_lt_ceilDiv some fits (toNat_pos_of_ne_zero long)
  rw [none] at first
  contradiction

private theorem runBlockScaledProduct_exact (someRows : blockRows ≠ 0) (someColumns : blockColumns ≠ 0)
    (fitsRows : (right.extent 1).toNat + blockRows.toNat - 1 < 2 ^ 64)
    (fitsColumns : (left.extent 1).toNat + blockColumns.toNat - 1 < 2 ^ 64)
    (ran : runBlockScaledProduct target left leftScale right rightScale blockRows blockColumns before =
      .ok after) :
    ∃ rows depth columns kind leftKind rightKind state, BlockExact before target left leftScale right
      rightScale blockRows blockColumns rows depth columns kind leftKind rightKind state after := by
  obtain ⟨fit, leftShape, rightShape⟩ := runBlockScaledProduct_accepted ran
  obtain ⟨leftScales, rightScales, kind, leftRead, rightRead, targetFloat, same⟩ :=
    runBlockScaledProduct_loops ran
  obtain ⟨leftKind, leftFloat, leftEntry⟩ := kind_of_decodeMatrix leftRead
  obtain ⟨rightKind, rightFloat, rightEntry⟩ := kind_of_decodeMatrix rightRead
  rw [(View.extent_pair leftShape).1, (View.extent_pair leftShape).2] at leftFloat leftEntry
  rw [(View.extent_pair rightShape).1, (View.extent_pair rightShape).2] at rightFloat rightEntry
  obtain ⟨state, fills⟩ : ∃ state, Fills before target kind (left.extent 0) (right.extent 1)
      (fun i j => blockEntry (left.extent 1) blockColumns
        (ceilDiv (left.extent 1) blockColumns).toNat (fun p => before.number left .f8 [i, p])
        (fun p => before.number right .f8 [p, j])
        (fun block => before.number leftScale leftKind [i, block])
        (fun block => before.number rightScale rightKind [j / blockRows.toNat, block]))
      state after := by
    rw [same]
    refine ⟨_, Fills.of_loops fun i inRows j inColumns => ?_⟩
    rw [← blockEntry_congr (fun p inDepth => fit.leftEntry before inRows inDepth)
      (fun p inDepth => fit.rightEntry before inDepth inColumns)
      (fun block below => leftEntry i inRows block below)
      fun block below => rightEntry _ (div_lt_ceilDiv someRows fitsRows inColumns) block below]
  have blocks (depth : left.extent 1 ≠ 0) : ceilDiv (left.extent 1) blockColumns ≠ 0 :=
    ceilDiv_ne_zero someColumns fitsColumns depth
  exact ⟨left.extent 0, left.extent 1, right.extent 1, kind, leftKind, rightKind, state, {
    fit := fit
    leftScales := leftShape
    rightScales := rightShape
    kinds := fun rows columns => ⟨targetFloat rows columns, fun depth =>
      ⟨leftFloat rows (blocks depth),
        rightFloat (ceilDiv_ne_zero someRows fitsRows columns) (blocks depth)⟩⟩
    once := fun p inside => existsUnique_chunk someColumns fitsColumns inside
    entries := fills.computes fit.targetShape targetFloat
      fun _ _ => blockEntry_eq_sum someColumns fitsColumns .. }⟩

end Blocks

section Packed

variable {target left packed scale weight : View} {outFeatures inFeatures : UInt64}
  {leftKind : FloatKind} {before mem after : Memory}

/-- What a product with a packed weight computes, by the weight as it was before it was packed. -/
structure PackedExact (before : Memory) (weight : View) (mem : Memory) (target left scale : View)
    (rows outFeatures inFeatures : UInt64) (kind leftKind scaleKind : FloatKind)
    (state : Nat → Nat → Memory) (after : Memory) : Prop where
  weightKind : weight.kind = .float .f8
  weightShape : weight.shape = [outFeatures, inFeatures]
  tiled : outFeatures % packTile = 0 ∧ inFeatures % packTile = 0
  leftFloat : left.kind = .float leftKind
  leftShape : left.shape = [rows, inFeatures]
  targetShape : target.shape = [rows, outFeatures]
  scaleCount : scale.numel = outFeatures
  kinds : rows ≠ 0 → outFeatures ≠ 0 → scale.kind = .float scaleKind ∧ target.kind = .float kind
  entries :
    let a (i p : Nat) := mem.number left leftKind [i, p]
    let w (j p : Nat) := before.number weight .f8 [j, p]
    let wScale (j : Nat) := mem.number scale scaleKind (scale.shape.indexAt j)
    Computes mem target kind rows outFeatures
      (fun read i j => packedEntry inFeatures.toNat (fun p => read (a i p))
        fun p => read (w j p) * read (wScale j))
      (fun i j => ∑ p ∈ Finset.range inFeatures.toNat,
        (a i p).value * ((w j p).value * (wScale j).value)) state after

/-- The loops of a product with a packed weight. -/
private theorem runPackedProduct_loops
    (ran : runPackedProduct target left packed scale outFeatures inFeatures mem = .ok after)
    (leftFloat : left.kind = .float leftKind) :
    ∃ kind scaleKind, (left.extent 0 ≠ 0 → outFeatures ≠ 0 → scale.kind = .float scaleKind ∧
        target.kind = .float kind) ∧
      after = forRange 0 (left.extent 0).toNat mem fun first row =>
        forRange 0 outFeatures.toNat first fun mid column =>
          mid.setNumber target kind [row, column]
            (packedEntry inFeatures.toNat ((mem.numbers left leftKind).entry row)
              ((Matrix.tabulate outFeatures.toNat inFeatures.toNat fun row column =>
                packedNumber mem packed outFeatures row column *
                  mem.scaleNumber scale scaleKind row).entry column)) := by
  simp only [runPackedProduct, bind_eq_ok, require_eq_ok, ElementKind.decodable_eq_ok] at ran
  obtain ⟨-, -, _, sameFloat, -, -, -, -, -, -, -, -, ran⟩ := ran
  cases leftFloat.symm.trans sameFloat
  split at ran
  · next none =>
    refine ⟨.f32, .f32, fun _ some => absurd none some, ?_⟩
    rw [forRange_empty (.inr none)]
    exact (Except.ok.inj ran).symm
  · simp only [bind_eq_ok, ElementKind.decodable_eq_ok] at ran
    obtain ⟨scaleKind, scaleFloat, ran⟩ := ran
    split at ran
    · next none =>
      refine ⟨.f32, .f32, fun some => absurd none some, ?_⟩
      rw [forRange_empty (.inl none)]
      exact (Except.ok.inj ran).symm
    · simp only [bind_eq_ok, ElementKind.encodable_eq_ok, pure_eq_ok] at ran
      obtain ⟨kind, targetFloat, same⟩ := ran
      exact ⟨kind, scaleKind, fun _ _ => ⟨scaleFloat, targetFloat⟩, same.symm⟩

/-- What packing has found in order where it is done. -/
private theorem runRepack_accepted (ran : runRepack packed weight mem = .ok after) :
    weight.kind = .float .f8 ∧ weight.shape = [weight.extent 0, weight.extent 1] ∧
      weight.extent 0 % packTile = 0 ∧ weight.extent 1 % packTile = 0 ∧ packed.kind = .i32 ∧
      packed.shape = packedShape (weight.extent 0) (weight.extent 1) := by
  simp only [runRepack, bind_eq_ok, require_eq_ok, Bool.and_eq_true, beq_iff_eq] at ran
  obtain ⟨-, ⟨weightKind, rank⟩, -, ⟨rowsTiled, columnsTiled⟩, -, ⟨⟨kind, -⟩, shape⟩, -⟩ := ran
  exact ⟨weightKind, shape_of_rank rank, rowsTiled, columnsTiled, kind, shape⟩

private theorem runPackedProduct_exact (packable : Packable before weight outFeatures inFeatures)
    (holds : ∀ j < outFeatures.toNat, ∀ p < inFeatures.toNat,
      packedNumber mem packed outFeatures j p = before.number weight .f8 [j, p])
    (scaleHas : mem.Has scale)
    (ran : runPackedProduct target left packed scale outFeatures inFeatures mem = .ok after) :
    ∃ rows kind leftKind scaleKind state, PackedExact before weight mem target left scale rows
      outFeatures inFeatures kind leftKind scaleKind state after := by
  have checked := packedChecked_of_ran ran
  obtain ⟨leftKind, leftFloat⟩ := checked.leftFloat
  obtain ⟨kind, scaleKind, kinds, same⟩ := runPackedProduct_loops ran leftFloat
  have scaled {j : Nat} (inColumns : j < outFeatures.toNat) :
      mem.scaleNumber scale scaleKind j =
        mem.number scale scaleKind (scale.shape.indexAt j) := by
    rw [← servingIndex_eq_indexAt checked.scaleCount inColumns]
    exact scaleNumber_served scaleHas checked.scaleLayout (.inr (by rwa [checked.scaleCount]))
  obtain ⟨state, fills⟩ : ∃ state, Fills mem target kind (left.extent 0) outFeatures (fun i j =>
      packedEntry inFeatures.toNat (fun p => mem.number left leftKind [i, p]) fun p =>
        before.number weight .f8 [j, p] * mem.number scale scaleKind (scale.shape.indexAt j))
      state after := by
    rw [same]
    refine ⟨_, Fills.of_loops fun i inRows j inColumns => ?_⟩
    refine congrArg (Memory.setNumber _ target kind [i, j]) (packedEntry_congr ?_ ?_)
    · intro p inDepth
      exact mem.entry_numbers left leftKind inRows (by rwa [(View.extent_pair checked.leftShape).2])
    · intro p inDepth
      rw [Matrix.entry_tabulate, if_pos ⟨inColumns, inDepth⟩, holds j inColumns p inDepth,
        scaled inColumns]
  exact ⟨left.extent 0, kind, leftKind, scaleKind, state, {
    weightKind := packable.kind
    weightShape := packable.shape
    tiled := ⟨packable.rowsTiled, packable.columnsTiled⟩
    leftFloat := leftFloat
    leftShape := checked.leftShape
    targetShape := checked.targetShape
    scaleCount := checked.scaleCount
    kinds := kinds
    entries := fills.computes checked.targetShape (fun rows columns => (kinds rows columns).2)
      fun _ _ => packedEntry_eq_sum .. }⟩

end Packed

end Kernel

/-- A weight was packed: into a new tensor, or into one that covers a storage without the weight. -/
inductive PackedBy (before : Machine) (weight packed : Tensor) (after : Machine) : Prop where
  | new (returned : repacked (some weight) before = .ok packed after)
  | given (dense : before.memory.Dense packed.toView) (apart : weight.storage ≠ packed.storage)
    (returned : repackInto (some packed) (some weight) before = .ok () after)

/-- A weight that was packed could be packed, and its numbers are at their positions. -/
theorem PackedBy.packable {before after : Machine} {weight packed : Tensor}
    (made : PackedBy before weight packed after) (has : before.memory.Has weight.toView)
    (fits : (weight.extent 0).toNat * (weight.extent 1).toNat < 2 ^ 64) :
    Kernel.Packable before.memory weight.toView (weight.extent 0) (weight.extent 1) ∧
      ∀ j < (weight.extent 0).toNat, ∀ p < (weight.extent 1).toNat,
        Kernel.packedNumber after.memory packed.toView (weight.extent 0) j p =
          before.memory.number weight.toView .f8 [j, p] := by
  cases made with
  | new returned =>
    obtain ⟨middle, made⟩ := (ends_repacked weight before).answer returned
    obtain ⟨kind, shape, rowsTiled, columnsTiled, -⟩ := Kernel.runRepack_accepted made.ran
    have packable : Kernel.Packable before.memory weight.toView (weight.extent 0) (weight.extent 1) :=
      ⟨has, kind, shape, rowsTiled, columnsTiled, fits⟩
    exact ⟨packable, made.numbers packable⟩
  | given dense apart returned =>
    have ran := ((ends_repackInto packed weight before).answer returned).2
    obtain ⟨kind, shape, rowsTiled, columnsTiled, packedKind, packedShape⟩ :=
      Kernel.runRepack_accepted ran
    have packable : Kernel.Packable before.memory weight.toView (weight.extent 0) (weight.extent 1) :=
      ⟨has, kind, shape, rowsTiled, columnsTiled, fits⟩
    obtain ⟨mem, same, numbers⟩ := Kernel.runRepack_spec ⟨packable, dense, packedKind, packedShape, apart⟩
    cases same.symm.trans ran
    exact ⟨packable, numbers⟩

/-- Every product that a multiplying kernel has accepted and done is the product of the dequantized
factors, where its additions and multiplications are those of rational numbers: in each entry every
position of the shared axis counts once, with the scales that belong to it. -/
theorem products_exact :
    (∀ {target left leftScale right rightScale : Tensor} {before after : Machine},
      before.memory.Has leftScale.toView → before.memory.Has rightScale.toView →
      scaledProductInto (some target) (some left) (some leftScale) (some right) (some rightScale)
        before = .ok () after →
      ∃ rows depth columns kind leftKind rightKind state,
        Kernel.ScaledExact before.memory target.toView left.toView leftScale.toView right.toView
          rightScale.toView rows depth columns kind leftKind rightKind state after.memory) ∧
    (∀ {target left leftScale right rightScale : Tensor} {blockRows blockColumns : UInt64}
        {before after : Machine},
      (right.extent 1).toNat + blockRows.toNat - 1 < 2 ^ 64 →
      (left.extent 1).toNat + blockColumns.toNat - 1 < 2 ^ 64 →
      blockScaledProductInto (some target) (some left) (some leftScale) (some right)
        (some rightScale) blockRows blockColumns before = .ok () after →
      ∃ rows depth columns kind leftKind rightKind state,
        Kernel.BlockExact before.memory target.toView left.toView leftScale.toView right.toView
          rightScale.toView blockRows blockColumns rows depth columns kind leftKind rightKind state
          after.memory) ∧
    ∀ {weight packed target left scale : Tensor} {before middle later after : Machine},
      before.memory.Has weight.toView →
      (weight.extent 0).toNat * (weight.extent 1).toNat < 2 ^ 64 →
      PackedBy before weight packed middle →
      later.memory.contents packed.storage = middle.memory.contents packed.storage →
      later.memory.Has scale.toView →
      packedProductInto (some target) (some left) (some packed) (some scale) (weight.extent 0)
        (weight.extent 1) later = .ok () after →
      ∃ rows kind leftKind scaleKind state,
        Kernel.PackedExact before.memory weight.toView later.memory target.toView left.toView
          scale.toView rows (weight.extent 0) (weight.extent 1) kind leftKind scaleKind state
          after.memory := by
  refine ⟨?_, ?_, ?_⟩
  · intro target left leftScale right rightScale before after leftHas rightHas returned
    exact Kernel.runScaledProduct_exact leftHas rightHas
      ((ends_scaledProductInto target left leftScale right rightScale before).answer returned).2
  · intro target left leftScale right rightScale blockRows blockColumns before after fitsRows
      fitsColumns returned
    obtain ⟨someRows, someColumns⟩ := (ends_blockScaledProductInto_passed target left leftScale right
      rightScale blockRows blockColumns before).answer returned
    exact Kernel.runBlockScaledProduct_exact someRows someColumns fitsRows fitsColumns
      ((ends_blockScaledProductInto target left leftScale right rightScale blockRows blockColumns
        before).answer returned).2
  · intro weight packed target left scale before middle later after has fits made kept scaleHas returned
    obtain ⟨packable, numbers⟩ := made.packable has fits
    refine Kernel.runPackedProduct_exact packable (fun j below p inDepth => ?_) scaleHas
      ((ends_packedProductInto target left packed scale _ _ later).answer returned).2
    -- the product reads the bytes that packing wrote
    rw [← numbers j below p inDepth]
    simp only [Kernel.packedNumber, Memory.byte, kept]

/-- Two factors with a shared axis of three positions, scales for two blocks of it, a single scale,
and room for a product. -/
def withFactors : Machine :=
  .holding #[#[0, 0, 0, 0], #[0x38, 0x40, 0xB8], #[0x40, 0x30, 0x38],
    #[0, 0, 0x80, 0x3F, 0, 0, 0, 0x40], #[0, 0, 0, 0x3F]]

/-- A weight of one tile, room for its packed form and for a product, and sixteen numbers. -/
def withWeight : Machine :=
  .holding #[Array.replicate 256 0x38, Array.replicate 256 0, Array.replicate 64 0,
    Array.replicate 64 0x3E]

theorem products_exact_small :
    let factor (storage : Nat) (shape : Shape) : Tensor := .covering storage (.float .f8) shape
    let numbers (storage : Nat) (shape : Shape) : Tensor := .covering storage (.float .f32) shape
    let packed : Tensor := .covering 1 .i32 [1, 64]
    (∃ after, scaledProductInto (some (numbers 0 [1, 1])) (some (factor 1 [1, 3]))
        (some (numbers 4 [1])) (some (factor 2 [3, 1])) (some (numbers 4 [1])) withFactors =
          .ok () after ∧
      ∃ rows depth columns kind leftKind rightKind state,
        Kernel.ScaledExact withFactors.memory (numbers 0 [1, 1]).toView (factor 1 [1, 3]).toView
          (numbers 4 [1]).toView (factor 2 [3, 1]).toView (numbers 4 [1]).toView rows depth columns
          kind leftKind rightKind state after.memory) ∧
    (∃ after, blockScaledProductInto (some (numbers 0 [1, 1])) (some (factor 1 [1, 3]))
        (some (numbers 3 [1, 2])) (some (factor 2 [3, 1])) (some (numbers 3 [1, 2])) 1 2
          withFactors = .ok () after ∧
      ∃ rows depth columns kind leftKind rightKind state,
        Kernel.BlockExact withFactors.memory (numbers 0 [1, 1]).toView (factor 1 [1, 3]).toView
          (numbers 3 [1, 2]).toView (factor 2 [3, 1]).toView (numbers 3 [1, 2]).toView 1 2 rows
          depth columns kind leftKind rightKind state after.memory) ∧
    ∃ middle after, repackInto (some packed) (some (factor 0 [16, 16])) withWeight = .ok () middle ∧
      packedProductInto (some (numbers 2 [1, 16])) (some (numbers 3 [1, 16])) (some packed)
        (some (numbers 3 [16])) 16 16 middle = .ok () after ∧
      ∃ rows kind leftKind scaleKind state,
        Kernel.PackedExact withWeight.memory (factor 0 [16, 16]).toView middle.memory
          (numbers 2 [1, 16]).toView (numbers 3 [1, 16]).toView (numbers 3 [16]).toView rows 16 16
          kind leftKind scaleKind state after.memory := by
  intro factor numbers packed
  refine ⟨?_, ?_, ?_⟩
  · have returns : (match scaledProductInto (some (numbers 0 [1, 1])) (some (factor 1 [1, 3]))
        (some (numbers 4 [1])) (some (factor 2 [3, 1])) (some (numbers 4 [1])) withFactors with
      | .ok _ _ => true
      | .error _ _ => false) = true := by decide +kernel
    split at returns
    · next after returned =>
      exact ⟨after, returned, products_exact.1 ⟨rfl, by decide⟩ ⟨rfl, by decide⟩ returned⟩
    · cases returns
  · have returns : (match blockScaledProductInto (some (numbers 0 [1, 1])) (some (factor 1 [1, 3]))
        (some (numbers 3 [1, 2])) (some (factor 2 [3, 1])) (some (numbers 3 [1, 2])) 1 2
          withFactors with
      | .ok _ _ => true
      | .error _ _ => false) = true := by decide +kernel
    split at returns
    · next after returned =>
      exact ⟨after, returned, products_exact.2.1 (by decide) (by decide) returned⟩
    · cases returns
  · have returns : (match repackInto (some packed) (some (factor 0 [16, 16])) withWeight with
      | .ok _ middle => (match packedProductInto (some (numbers 2 [1, 16])) (some (numbers 3 [1, 16]))
          (some packed) (some (numbers 3 [16])) 16 16 middle with
        | .ok _ _ => true
        | .error _ _ => false)
      | .error _ _ => false) = true := by decide +kernel
    split at returns
    · next middle filled =>
      split at returns
      · next after returned =>
        have followed := ((ends_repackInto packed (factor 0 [16, 16]) withWeight).answer filled).1
        have room : withWeight.memory.Dense packed.toView :=
          Memory.dense_covering (by decide) (by decide +kernel) (by decide)
        have scaleHas : withWeight.memory.Has (numbers 3 [16]).toView := ⟨rfl, by decide⟩
        exact ⟨middle, after, filled, returned,
          products_exact.2.2 ⟨rfl, by decide⟩ (by decide) (.given room (by decide) filled) rfl
            (scaleHas.later followed.memory) returned⟩
      · cases returns
    · cases returns

end QuantLinear
