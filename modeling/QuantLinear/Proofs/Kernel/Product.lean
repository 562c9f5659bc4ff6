import QuantLinear.Proofs.Kernel.Quantize

/-!
What the multiplying kernels write.

Each entry of a product is the entry that the definitions name, taken over the numbers that the
operands showed when the kernel began.
-/

namespace QuantLinear.Kernel

open Memory

theorem evolves_runScaledProduct {target left leftScale right rightScale : View}
    {mem after : Memory}
    (ran : runScaledProduct target left leftScale right rightScale mem = .ok after) :
    mem.Evolves [target.storage] after := by
  simp only [runScaledProduct, bind_eq_ok, require_eq_ok] at ran
  obtain ⟨_, _, _, _, _, _, _, _, ran⟩ := ran
  split at ran
  · cases ran
    exact .refl _ _
  · simp only [bind_eq_ok] at ran
    obtain ⟨_, _, ran⟩ := ran
    split at ran
    · cases ran
      exact .refl _ _
    · simp only [bind_eq_ok, pure_eq_ok] at ran
      obtain ⟨_, _, _, _, rfl⟩ := ran
      exact evolves_forRange (fun _ _ => evolves_forRange (fun _ _ => evolves_store ..) _) _

theorem evolves_runBlockScaledProduct {target left leftScale right rightScale : View}
    {blockRows blockColumns : UInt64} {mem after : Memory}
    (ran : runBlockScaledProduct target left leftScale right rightScale blockRows blockColumns mem =
      .ok after) :
    mem.Evolves [target.storage] after := by
  simp only [runBlockScaledProduct, bind_eq_ok, require_eq_ok] at ran
  obtain ⟨_, _, _, _, _, _, _, _, _, _, _, _, ran⟩ := ran
  split at ran
  · cases ran
    exact .refl _ _
  · simp only [bind_eq_ok, pure_eq_ok] at ran
    obtain ⟨_, _, rfl⟩ := ran
    exact evolves_forRange (fun _ _ => evolves_forRange (fun _ _ => evolves_store ..) _) _

/-- The shapes of a matrix of the given extents. -/
theorem shape_of_rank {v : View} (rank : v.rank = 2) : v.shape = [v.extent 0, v.extent 1] := by
  obtain ⟨rows, columns, pair⟩ := List.length_eq_two.mp rank
  obtain ⟨first, second⟩ := View.extent_pair pair
  rw [pair, first, second]

/-- Factors and a target whose kinds and extents fit. -/
structure Multiplies (target left right : View) (rows depth columns : UInt64) : Prop where
  leftKind : left.kind = .float .f8
  rightKind : right.kind = .float .f8
  leftShape : left.shape = [rows, depth]
  rightShape : right.shape = [depth, columns]
  targetShape : target.shape = [rows, columns]

namespace Multiplies

variable {target left right : View} {rows depth columns : UInt64}

/-- The numbers of a row of the left factor. -/
theorem leftEntry (fit : Multiplies target left right rows depth columns) (mem : Memory) {i p : Nat}
    (inRows : i < rows.toNat) (inDepth : p < depth.toNat) :
    (mem.numbers left .f8).entry i p = mem.number left .f8 [i, p] :=
  mem.entry_numbers left .f8 (by rwa [(View.extent_pair fit.leftShape).1])
    (by rwa [(View.extent_pair fit.leftShape).2])

/-- The numbers of a column of the right factor. -/
theorem rightEntry (fit : Multiplies target left right rows depth columns) (mem : Memory) {p j : Nat}
    (inDepth : p < depth.toNat) (inColumns : j < columns.toNat) :
    (mem.numbers right .f8).entry p j = mem.number right .f8 [p, j] :=
  mem.entry_numbers right .f8 (by rwa [(View.extent_pair fit.rightShape).1])
    (by rwa [(View.extent_pair fit.rightShape).2])

end Multiplies

/-- Factors and a target that a multiplying kernel has let through fit. -/
private theorem multiplies_of_checked {kernel : Kernel} {target left right : View}
    (layouts : requireLayouts kernel left right = .ok ())
    (extents : requireExtents kernel target left right = .ok ()) :
    Multiplies target left right (left.extent 0) (left.extent 1) (right.extent 1) := by
  simp only [requireLayouts, bind_eq_ok, require_eq_ok, Bool.and_eq_true, beq_iff_eq,
    View.isRowMajor, View.isColumnMajor] at layouts
  simp only [requireExtents, bind_eq_ok, require_eq_ok, Bool.and_eq_true, beq_iff_eq] at extents
  obtain ⟨-, ⟨leftKind, rightKind⟩, -, ⟨leftRank, -⟩, rightRank, -⟩ := layouts
  obtain ⟨-, inner, ⟨targetRank, targetRows⟩, targetColumns⟩ := extents
  exact {
    leftKind := leftKind
    rightKind := rightKind
    leftShape := shape_of_rank leftRank
    rightShape := by rw [shape_of_rank rightRank, inner]
    targetShape := by rw [shape_of_rank targetRank, targetRows, targetColumns] }

/-- What a scaled product has found in order where it is done. -/
theorem runScaledProduct_accepted {target left leftScale right rightScale : View}
    {before after : Memory}
    (ran : runScaledProduct target left leftScale right rightScale before = .ok after) :
    Multiplies target left right (left.extent 0) (left.extent 1) (right.extent 1) ∧
      leftScale.isContiguous = true ∧ (leftScale.numel = 1 ∨ leftScale.numel = left.extent 0) ∧
      rightScale.isContiguous = true ∧ (rightScale.numel = 1 ∨ rightScale.numel = right.extent 1) := by
  simp only [runScaledProduct, bind_eq_ok, require_eq_ok, Bool.and_eq_true, Bool.or_eq_true,
    beq_iff_eq] at ran
  obtain ⟨_, layouts, _, extents, -, ⟨leftPacked, leftCount⟩, -, ⟨rightPacked, rightCount⟩, -⟩ := ran
  exact ⟨multiplies_of_checked layouts extents, leftPacked, leftCount, rightPacked, rightCount⟩

/-- What a product in blocks has found in order where it is done. -/
theorem runBlockScaledProduct_accepted {target left leftScale right rightScale : View}
    {blockRows blockColumns : UInt64} {before after : Memory}
    (ran : runBlockScaledProduct target left leftScale right rightScale blockRows blockColumns before =
      .ok after) :
    Multiplies target left right (left.extent 0) (left.extent 1) (right.extent 1) ∧
      leftScale.shape = [left.extent 0, ceilDiv (left.extent 1) blockColumns] ∧
      rightScale.shape =
        [ceilDiv (right.extent 1) blockRows, ceilDiv (left.extent 1) blockColumns] := by
  simp only [runBlockScaledProduct, bind_eq_ok, require_eq_ok, Bool.and_eq_true, beq_iff_eq] at ran
  obtain ⟨_, layouts, _, extents, -, ⟨-, leftShape⟩, -, ⟨-, rightShape⟩, -⟩ := ran
  exact ⟨multiplies_of_checked layouts extents, leftShape, rightShape⟩

/-- Factors and a target that fit. -/
structure ProductOperands (mem : Memory) (target left right : View) (rows depth columns : UInt64)
    (kind : FloatKind) : Prop where
  separate : mem.Separate target
  targetShape : target.shape = [rows, columns]
  targetKind : target.kind = .float kind
  leftKind : left.kind = .float .f8
  leftShape : left.shape = [rows, depth]
  leftLayout : left.isRowMajor = true
  rightKind : right.kind = .float .f8
  rightShape : right.shape = [depth, columns]
  rightLayout : right.isColumnMajor = true

/-- Scales without gaps are read in row-major order. -/
private theorem scaleNumber_eq {mem : Memory} {scale : View} {kind : FloatKind} (there : mem.Has scale)
    (packed : scale.isContiguous = true) {i : Nat} {index : Index} (inside : scale.shape.Within index)
    (place : scale.shape.placeOf index = if scale.numel = 1 then 0 else i) :
    mem.scaleNumber scale kind i = mem.number scale kind index := by
  have choice : (if scale.numel == 1 then 0 else i) = scale.shape.placeOf index := by
    rw [place]
    simp only [beq_iff_eq]
  simp only [scaleNumber, choice, wordAt_addressAt there packed inside, Memory.number]

/-- The index of the scale that serves a position: a single one serves all of them. -/
def servingIndex (scale : View) (i : Nat) : Index :=
  scale.shape.indexAt (if scale.numel = 1 then 0 else i)

private theorem servingPlace_lt {scale : View} {i : Nat}
    (serves : scale.numel = 1 ∨ i < scale.numel.toNat) :
    (if scale.numel = 1 then 0 else i) < scale.shape.count := by
  have fewer : scale.numel.toNat ≤ scale.shape.count := by
    rw [View.numel, Shape.toNat_numel]
    exact Nat.mod_le _ _
  apply Nat.lt_of_lt_of_le _ fewer
  split
  · next one => simp [one]
  · next several => exact serves.resolve_left several

private theorem within_servingIndex {scale : View} {i : Nat}
    (serves : scale.numel = 1 ∨ i < scale.numel.toNat) :
    scale.shape.Within (servingIndex scale i) :=
  Shape.within_indexAt (servingPlace_lt serves)

/-- Scales that are as many as the positions serve one each, in row-major order. -/
theorem servingIndex_eq_indexAt {scale : View} {count : UInt64} (all : scale.numel = count) {i : Nat}
    (below : i < count.toNat) : servingIndex scale i = scale.shape.indexAt i := by
  rw [servingIndex]
  split
  · next one =>
    -- a single scale serves the single position
    rw [← all, one, show (1 : UInt64).toNat = 1 from rfl] at below
    rw [Nat.lt_one_iff.mp below]
  · rfl

theorem scaleNumber_served {mem : Memory} {scale : View} {kind : FloatKind} (there : mem.Has scale)
    (packed : scale.isContiguous = true) {i : Nat}
    (serves : scale.numel = 1 ∨ i < scale.numel.toNat) :
    mem.scaleNumber scale kind i = mem.number scale kind (servingIndex scale i) :=
  scaleNumber_eq there packed (within_servingIndex serves)
    (Shape.placeOf_indexAt (servingPlace_lt serves))

/-- A scale without gaps that lies apart from a target. -/
structure ScaleOperand (mem : Memory) (target scale : View) (kind : FloatKind) : Prop where
  has : mem.Has scale
  packed : scale.isContiguous = true
  kind_eq : scale.kind = .float kind
  apart : target.Disjoint scale

namespace ScaleOperand

variable {mem mid : Memory} {target scale : View} {kind : FloatKind}

/-- The scale that serves a position is the one at its index. -/
theorem number (ready : ScaleOperand mem target scale kind) {i : Nat} {index : Index}
    (inside : scale.shape.Within index)
    (place : scale.shape.placeOf index = if scale.numel = 1 then 0 else i) :
    mem.scaleNumber scale kind i = mem.number scale kind index :=
  scaleNumber_eq ready.has ready.packed inside place

/-- Writing to the target leaves the scale as it is. -/
private theorem unchanged (ready : ScaleOperand mem target scale kind)
    (rewritten : mem.Rewrites [target] mid)
    {i : Nat} (serves : scale.numel = 1 ∨ i < scale.numel.toNat) :
    mid.scaleNumber scale kind i = mem.scaleNumber scale kind i := by
  rw [scaleNumber_served (ready.has.later rewritten.evolves) ready.packed serves,
    scaleNumber_served ready.has ready.packed serves,
    rewritten.number (by simpa using ready.apart) kind (within_servingIndex serves)]

end ScaleOperand

namespace ProductOperands

variable {mem later : Memory} {target left right : View} {rows depth columns : UInt64}
  {kind : FloatKind}

private theorem layouts (ready : ProductOperands mem target left right rows depth columns kind)
    (kernel : Kernel) : requireLayouts kernel left right = .ok () := by
  simp only [requireLayouts, require, ready.leftKind, ready.rightKind, ready.leftLayout,
    ready.rightLayout, BEq.rfl, Bool.and_self, if_true]
  rfl

theorem extents (ready : ProductOperands mem target left right rows depth columns kind)
    (kernel : Kernel) : requireExtents kernel target left right = .ok () := by
  simp [requireExtents, require, View.rank, View.extent, ready.targetShape, ready.leftShape,
    ready.rightShape]
  rfl

private theorem rows_eq (ready : ProductOperands mem target left right rows depth columns kind) :
    left.extent 0 = rows := (View.extent_pair ready.leftShape).1

private theorem depth_eq (ready : ProductOperands mem target left right rows depth columns kind) :
    left.extent 1 = depth := (View.extent_pair ready.leftShape).2

private theorem columns_eq (ready : ProductOperands mem target left right rows depth columns kind) :
    right.extent 1 = columns := (View.extent_pair ready.rightShape).2

theorem multiplies (ready : ProductOperands mem target left right rows depth columns kind) :
    Multiplies target left right rows depth columns :=
  ⟨ready.leftKind, ready.rightKind, ready.leftShape, ready.rightShape, ready.targetShape⟩

end ProductOperands

variable {mem : Memory} {target left leftScale right rightScale : View}
  {rows depth columns blockRows blockColumns : UInt64} {kind leftKind rightKind : FloatKind}

/-- An entry of a scaled product depends on the numbers of its row and its column alone. -/
theorem scaledEntry_congr {depth : Nat} {left otherLeft right otherRight : Nat → Binary32}
    (sameLeft : ∀ p < depth, left p = otherLeft p) (sameRight : ∀ p < depth, right p = otherRight p)
    (rowScale columnScale : Binary32) :
    scaledEntry depth left right rowScale columnScale =
      scaledEntry depth otherLeft otherRight rowScale columnScale := by
  rw [scaledEntry, scaledEntry, accumulate_congr fun p _ inDepth => by
    rw [sameLeft p inDepth, sameRight p inDepth]]

/-- The entries of a scaled product. -/
theorem runScaledProduct_spec (ready : ProductOperands mem target left right rows depth columns kind)
    (leftReady : ScaleOperand mem target leftScale leftKind)
    (leftCount : leftScale.numel = 1 ∨ leftScale.numel = rows)
    (rightReady : ScaleOperand mem target rightScale rightKind)
    (rightCount : rightScale.numel = 1 ∨ rightScale.numel = columns) :
    ∃ after, runScaledProduct target left leftScale right rightScale mem = .ok after ∧
      ∀ row < rows.toNat, ∀ column < columns.toNat, after.load target [row, column] =
        kind.encode (scaledEntry depth.toNat (fun p => mem.number left .f8 [row, p])
          (fun p => mem.number right .f8 [p, column]) (mem.scaleNumber leftScale leftKind row)
          (mem.scaleNumber rightScale rightKind column)) := by
  obtain ⟨-, written⟩ := Filled.matrix ready.separate ready.targetShape
    (fun row column => kind.encode (scaledEntry depth.toNat
      (fun p => mem.number left .f8 [row, p]) (fun p => mem.number right .f8 [p, column])
      (mem.scaleNumber leftScale leftKind row) (mem.scaleNumber rightScale rightKind column)))
    (fun first row mid column => mid.setNumber target kind [row, column]
      (scaledEntry depth.toNat ((mem.numbers left .f8).entry row)
        ((mem.numbers right .f8).entry · column) (first.scaleNumber leftScale leftKind row)
        (mid.scaleNumber rightScale rightKind column)))
    (fun _ _ => by rw [ready.targetKind]; exact kind.encode_lt _)
    -- each scale is read again at every position, where it is still what it was
    fun first mid started grown row inRows column inColumns => by
      rw [setNumber, leftReady.unchanged started (leftCount.imp_right fun all => by rwa [all]),
        rightReady.unchanged grown (rightCount.imp_right fun all => by rwa [all]),
        scaledEntry_congr (fun p inDepth => ready.multiplies.leftEntry mem inRows inDepth)
          fun p inDepth => ready.multiplies.rightEntry mem inDepth inColumns]
  refine ⟨_, ?_, written⟩
  have leftSingle : (leftScale.isContiguous &&
      (leftScale.numel == 1 || leftScale.numel == rows)) = true := by
    simpa [leftReady.packed] using leftCount
  have rightSingle : (rightScale.isContiguous &&
      (rightScale.numel == 1 || rightScale.numel == columns)) = true := by
    simpa [rightReady.packed] using rightCount
  simp only [runScaledProduct, ready.layouts, ready.extents, ready.rows_eq, ready.depth_eq,
    ready.columns_eq, leftSingle, rightSingle, require, if_true, leftReady.kind_eq,
    rightReady.kind_eq, ready.targetKind, ElementKind.decodable, ElementKind.encodable]
  -- the kernel looks at the scale of each side only where there is something to multiply
  split
  · next none =>
    rw [none]
    rfl
  · simp only [pure_bind]
    split
    · next none =>
      rw [forRange_empty (.inr none)]
      rfl
    · rfl

/-- The entries of a scale that is read as a matrix; its kind is asked for only where it has some. -/
theorem decodeMatrix_spec {v : View} (mem : Memory)
    (float : v.extent 0 ≠ 0 → v.extent 1 ≠ 0 → v.kind = .float kind) :
    ∃ matrix, mem.decodeMatrix v = .ok matrix ∧
      ∀ row < (v.extent 0).toNat, ∀ column < (v.extent 1).toNat,
        matrix.entry row column = mem.number v kind [row, column] := by
  rw [decodeMatrix]
  split
  · next empty =>
    refine ⟨_, rfl, fun row inRows column inColumns => ?_⟩
    rcases empty with none | none
    · simp [none] at inRows
    · simp [none] at inColumns
  · next full =>
    refine ⟨mem.numbers v kind, ?_, fun row inRows column inColumns =>
      mem.entry_numbers v kind inRows inColumns⟩
    rw [float (fun none => full (.inl none)) fun none => full (.inr none)]
    rfl

/-- An entry of a product in blocks depends on the numbers of its row and its column and on the
scales of its blocks alone. -/
theorem blockEntry_congr {depth size : UInt64} {blocks : Nat}
    {left otherLeft right otherRight leftScale otherLeftScale rightScale otherRightScale :
      Nat → Binary32}
    (sameLeft : ∀ p < depth.toNat, left p = otherLeft p)
    (sameRight : ∀ p < depth.toNat, right p = otherRight p)
    (sameLeftScale : ∀ block < blocks, leftScale block = otherLeftScale block)
    (sameRightScale : ∀ block < blocks, rightScale block = otherRightScale block) :
    blockEntry depth size blocks left right leftScale rightScale =
      blockEntry depth size blocks otherLeft otherRight otherLeftScale otherRightScale := by
  refine accumulate_congr fun block _ below => ?_
  have ends : (chunkRange depth size (UInt64.ofNat block)).2 ≤ depth.toNat := by
    simp only [chunkRange, UInt64.toNat_min]
    exact Nat.min_le_left ..
  simp only [sameLeftScale block below, sameRightScale block below]
  congr 2
  -- a chunk stays within the row and the column
  refine accumulate_congr fun p _ inChunk => ?_
  have inside := Nat.lt_of_lt_of_le inChunk ends
  rw [sameLeft p inside, sameRight p inside]

/-- The entries of a product in blocks. -/
theorem runBlockScaledProduct_spec
    (ready : ProductOperands mem target left right rows depth columns kind)
    (leftFloat : ceilDiv depth blockColumns ≠ 0 → leftScale.kind = .float leftKind)
    (leftPacked : leftScale.isContiguous = true)
    (leftShape : leftScale.shape = [rows, ceilDiv depth blockColumns])
    (rightFloat : ceilDiv depth blockColumns ≠ 0 → rightScale.kind = .float rightKind)
    (rightPacked : rightScale.isContiguous = true)
    (rightShape : rightScale.shape = [ceilDiv columns blockRows, ceilDiv depth blockColumns])
    (some : blockRows ≠ 0) (fits : columns.toNat + blockRows.toNat - 1 < 2 ^ 64) :
    ∃ after, runBlockScaledProduct target left leftScale right rightScale blockRows blockColumns
        mem = .ok after ∧
      ∀ row < rows.toNat, ∀ column < columns.toNat, after.load target [row, column] =
        kind.encode (blockEntry depth blockColumns (ceilDiv depth blockColumns).toNat
          (fun p => mem.number left .f8 [row, p]) (fun p => mem.number right .f8 [p, column])
          (fun block => mem.number leftScale leftKind [row, block])
          fun block => mem.number rightScale rightKind [column / blockRows.toNat, block]) := by
  obtain ⟨leftScales, leftRead, leftEntry⟩ := decodeMatrix_spec mem fun _ some =>
    leftFloat ((View.extent_pair leftShape).2 ▸ some)
  obtain ⟨rightScales, rightRead, rightEntry⟩ := decodeMatrix_spec mem fun _ some =>
    rightFloat ((View.extent_pair rightShape).2 ▸ some)
  rw [(View.extent_pair leftShape).1, (View.extent_pair leftShape).2] at leftEntry
  rw [(View.extent_pair rightShape).1, (View.extent_pair rightShape).2] at rightEntry
  obtain ⟨-, written⟩ := Filled.matrix ready.separate ready.targetShape
    (fun row column => kind.encode (blockEntry depth blockColumns
      (ceilDiv depth blockColumns).toNat (fun p => mem.number left .f8 [row, p])
      (fun p => mem.number right .f8 [p, column])
      (fun block => mem.number leftScale leftKind [row, block])
      fun block => mem.number rightScale rightKind [column / blockRows.toNat, block]))
    (fun _ row mid column => mid.setNumber target kind [row, column]
      (blockEntry depth blockColumns (ceilDiv depth blockColumns).toNat
        ((mem.numbers left .f8).entry row) ((mem.numbers right .f8).entry · column)
        (leftScales.entry row) (rightScales.entry (column / blockRows.toNat))))
    (fun _ _ => by rw [ready.targetKind]; exact kind.encode_lt _)
    fun first mid _ _ row inRows column inColumns => by
      rw [setNumber, blockEntry_congr (fun p inDepth => ready.multiplies.leftEntry mem inRows inDepth)
        (fun p inDepth => ready.multiplies.rightEntry mem inDepth inColumns)
        (fun block below => leftEntry row inRows block below)
        fun block below => rightEntry _ (div_lt_ceilDiv some fits inColumns) block below]
  refine ⟨_, ?_, written⟩
  -- The program returns early on an empty product, where the loops have nothing to do either.
  simp only [runBlockScaledProduct, ready.layouts, ready.extents, ready.rows_eq, ready.depth_eq,
    ready.columns_eq, leftPacked, rightPacked, leftShape, rightShape, leftRead, rightRead, require,
    BEq.rfl, Bool.and_self, if_true, ready.targetKind, ElementKind.encodable]
  split
  · next empty =>
    rw [forRange_empty empty]
    rfl
  · rfl

end QuantLinear.Kernel
