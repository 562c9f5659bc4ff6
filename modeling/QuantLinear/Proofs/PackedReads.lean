import QuantLinear.Proofs.Packing

/-!
The bytes that a product with a packed weight reads.

The kernel checks that its packed operand has the shape that both sizes give when they are cut into
whole tiles, and then reads a byte for each weight of the sizes. Where the input features make up whole
tiles, these bytes are those of the operand. A tile that is not whole has no row in the operand, and its
weights are read from the bytes that follow.
-/

namespace QuantLinear

/-- Different positions have different addresses. -/
private theorem View.byteAddress_inj {v : View} {position other : UInt64}
    (same : v.byteAddress position = v.byteAddress other) : position = other :=
  (UInt64.add_right_inj v.offset).mp (UInt64.toNat_inj.mp same)

namespace Kernel

/-- The checks of a product with a packed weight, which come before it reads. -/
def packedProductChecks (target left packed scale : View) (outFeatures inFeatures : UInt64) :
    Except Fault Unit := do
  let fail := Fault.kernelFailure Kernel.packedProduct.label
  require left.kind.isWideFloating (fail .leftNotWide)
  require (left.isRowMajor && left.extent 1 == inFeatures) (fail (.leftNotRowMajorWide left))
  require (packed.kind == .i32 && packed.isContiguous
    && packed.shape == packedShape outFeatures inFeatures)
    (fail (.packedOperand outFeatures inFeatures))
  require (scale.isContiguous && scale.numel == outFeatures) (fail .packedScale)
  require (target.rank == 2 && target.extent 0 == left.extent 0
    && target.extent 1 == outFeatures) (fail .outputShape)

/-- Operands that a product with a packed weight has let through. -/
structure PackedChecked (target left packed scale : View) (outFeatures inFeatures : UInt64) :
    Prop where
  leftFloat : ∃ leftKind, left.kind = .float leftKind
  leftShape : left.shape = [left.extent 0, inFeatures]
  packedKind : packed.kind = .i32
  packedLayout : packed.isContiguous = true
  packedShape : packed.shape = packedShape outFeatures inFeatures
  scaleLayout : scale.isContiguous = true
  scaleCount : scale.numel = outFeatures
  targetShape : target.shape = [left.extent 0, outFeatures]

section Checks

variable {target left packed scale : View} {outFeatures inFeatures : UInt64}

private theorem exists_float_of_isWideFloating {kind : ElementKind}
    (wide : kind.isWideFloating = true) :
    ∃ float, kind = .float float := by
  cases kind with
  | float float => exact ⟨float, rfl⟩
  | _ => cases wide

private theorem packedChecked_of_passed
    (passed : packedProductChecks target left packed scale outFeatures inFeatures = .ok ()) :
    PackedChecked target left packed scale outFeatures inFeatures := by
  simp only [packedProductChecks, bind_eq_ok, require_eq_ok, Bool.and_eq_true, beq_iff_eq,
    View.isRowMajor] at passed
  obtain ⟨-, wide, -, ⟨⟨leftRank, -⟩, depth⟩, -, ⟨⟨kind, layout⟩, shape⟩, -,
    ⟨scaleLayout, scaleCount⟩, ⟨targetRank, targetRows⟩, targetColumns⟩ := passed
  exact {
    leftFloat := exists_float_of_isWideFloating wide
    leftShape := by rw [← depth]; exact shape_of_rank leftRank
    packedKind := kind
    packedLayout := layout
    packedShape := shape
    scaleLayout := scaleLayout
    scaleCount := scaleCount
    targetShape := by rw [← targetRows, ← targetColumns]; exact shape_of_rank targetRank }

/-- A product with a packed weight makes its checks first. -/
private theorem runPackedProduct_checks (target left packed scale : View)
    (outFeatures inFeatures : UInt64)
    (mem : Memory) :
    ∃ rest, runPackedProduct target left packed scale outFeatures inFeatures mem =
      (packedProductChecks target left packed scale outFeatures inFeatures >>= fun _ => rest) := by
  cases wide : left.kind.isWideFloating with
  | false =>
    refine ⟨.ok mem, ?_⟩
    rw [runPackedProduct, packedProductChecks, wide]
    rfl
  | true =>
    -- the kind of the left factor, which is asked for between the checks, is known by then
    obtain ⟨leftKind, float⟩ := exists_float_of_isWideFloating wide
    have known : left.kind.decodable = pure leftKind := by
      rw [float]
      rfl
    simp only [runPackedProduct, packedProductChecks, known, bind_assoc, pure_bind]
    exact ⟨_, rfl⟩

/-- A product that is done has passed its checks. -/
theorem packedChecked_of_ran {mem after : Memory}
    (ran : runPackedProduct target left packed scale outFeatures inFeatures mem = .ok after) :
    PackedChecked target left packed scale outFeatures inFeatures := by
  obtain ⟨rest, split⟩ := runPackedProduct_checks target left packed scale outFeatures inFeatures mem
  rw [split, bind_eq_ok] at ran
  obtain ⟨⟨⟩, passed, -⟩ := ran
  exact packedChecked_of_passed passed

end Checks

section Positions

variable {outFeatures inFeatures : UInt64} {row column : Nat}

/-- The operand has bytes for the whole tiles alone. -/
private theorem toNat_byteCount_packed {packed : View} (kind : packed.kind = .i32)
    (shape : packed.shape = packedShape outFeatures inFeatures)
    (fits : 4 * (outFeatures.toNat * inFeatures.toNat) < 2 ^ 63) :
    packed.byteCount.toNat = inFeatures.toNat / 16 * (16 * outFeatures.toNat) := by
  have wide : outFeatures.toNat * 16 < 2 ^ 64 ∨ inFeatures.toNat < 16 := by
    rcases Nat.lt_or_ge inFeatures.toNat 16 with few | many
    · exact .inr few
    · have product := Nat.mul_le_mul_left outFeatures.toNat many
      left
      omega
  have count := count_packedShape_of_lt wide
  have whole : inFeatures.toNat / 16 * (16 * outFeatures.toNat) ≤
      outFeatures.toNat * inFeatures.toNat := by
    rw [← Nat.mul_assoc, Nat.mul_comm outFeatures.toNat]
    exact Nat.mul_le_mul_right _ (Nat.div_mul_le_self _ _)
  rw [View.byteCount, View.numel, shape, kind, toNat_byteCount (by omega), count]

/-- Positions do not wrap as long as there are no more than `2 ^ 60` output features. -/
private theorem toNat_packedPosition_of_few (few : outFeatures.toNat ≤ 2 ^ 60)
    (fits : 4 * (outFeatures.toNat * inFeatures.toNat) < 2 ^ 63) (inRows : row < outFeatures.toNat)
    (inColumns : column < inFeatures.toNat) :
    (packedPosition outFeatures (UInt64.ofNat row) (UInt64.ofNat column)).toNat =
      packedPlace outFeatures.toNat row column := by
  have small := inFeatures.toNat_lt
  rcases Nat.lt_or_ge column 16 with first | later
  · apply toNat_packedPosition_of_lt (by omega) (.inr first)
    rw [packedPlace, Nat.div_eq_of_lt first, Nat.zero_mul]
    omega
  · -- the tile columns before this one hold no more bytes than there are weights
    have product := Nat.mul_le_mul_left outFeatures.toNat (Nat.le_trans later inColumns.le)
    have before : column / 16 * (16 * outFeatures.toNat) ≤
        outFeatures.toNat * inFeatures.toNat := by
      rw [← Nat.mul_assoc, Nat.mul_comm outFeatures.toNat]
      exact Nat.mul_le_mul_right _ (Nat.le_trans (Nat.div_mul_le_self _ _) inColumns.le)
    apply toNat_packedPosition_of_lt (by omega) (.inl (by omega))
    rw [packedPlace]
    omega

/-- A place lies among those of the whole tiles just where its tile is whole. -/
private theorem packedPlace_lt_iff {rows tiles : Nat} (inRows : row < rows) :
    packedPlace rows row column < tiles * (16 * rows) ↔ column / 16 < tiles := by
  have inTile : row * 16 + column % 16 < 16 * rows := by omega
  rw [packedPlace]
  constructor
  · intro below
    by_contra outside
    have beyond := Nat.mul_le_mul_right (16 * rows) (Nat.not_lt.mp outside)
    omega
  · intro inside
    have next := Nat.mul_le_mul_right (16 * rows) (Nat.succ_le_of_lt inside)
    rw [Nat.succ_mul] at next
    omega

/-- What a product with a packed weight reads of its packed operand: a byte for each weight. -/
structure PackedReads (packed : View) (outFeatures inFeatures : UInt64) : Prop where
  /-- A byte is one of the operand just where the tile of its weight is whole. -/
  inside : ∀ row < outFeatures.toNat, ∀ column < inFeatures.toNat,
    (packedPosition outFeatures (UInt64.ofNat row) (UInt64.ofNat column) < packed.byteCount ↔
      column / 16 < inFeatures.toNat / 16)
  /-- Two weights are read from one byte only where positions wrap. -/
  distinct : (∀ row < outFeatures.toNat, ∀ column < inFeatures.toNat,
      ∀ otherRow < outFeatures.toNat, ∀ otherColumn < inFeatures.toNat,
        packed.byteAddress (packedPosition outFeatures (UInt64.ofNat row) (UInt64.ofNat column)) =
          packed.byteAddress
            (packedPosition outFeatures (UInt64.ofNat otherRow) (UInt64.ofNat otherColumn)) →
        row = otherRow ∧ column = otherColumn) ↔
    outFeatures.toNat ≤ 2 ^ 60 ∨ inFeatures = 0
  /-- Of whole tiles, the numbers depend on the bytes of the operand alone. -/
  only : inFeatures % packTile = 0 → ∀ mem other : Memory,
    (∀ position < packed.byteCount, mem.byte packed.storage (packed.byteAddress position) =
      other.byte packed.storage (packed.byteAddress position)) →
    ∀ row < outFeatures.toNat, ∀ column < inFeatures.toNat,
      packedNumber mem packed outFeatures row column =
        packedNumber other packed outFeatures row column

/-- A product with a packed weight that passes all its checks reads a byte of its packed operand for
each weight in a whole tile of input features, and a byte after the operand for every other weight. The
bytes are apart as long as their positions do not wrap. -/
theorem packedProduct_reads {target left packed scale : View}
    (passed : packedProductChecks target left packed scale outFeatures inFeatures = .ok ())
    (fits : 4 * (outFeatures.toNat * inFeatures.toNat) < 2 ^ 63) :
    PackedReads packed outFeatures inFeatures := by
  have checked := packedChecked_of_passed passed
  have size := toNat_byteCount_packed checked.packedKind checked.packedShape fits
  have inside (row : Nat) (inRows : row < outFeatures.toNat) (column : Nat)
      (inColumns : column < inFeatures.toNat) :
      packedPosition outFeatures (UInt64.ofNat row) (UInt64.ofNat column) < packed.byteCount ↔
        column / 16 < inFeatures.toNat / 16 := by
    rw [UInt64.lt_iff_toNat_lt, size]
    rcases Nat.lt_or_ge (2 ^ 60) outFeatures.toNat with many | few
    · -- so many output features leave no room for a whole tile of input features
      have none : inFeatures.toNat / 16 = 0 := by
        apply Nat.div_eq_of_lt
        by_contra wide
        have product := Nat.mul_le_mul many.le (Nat.not_lt.mp wide)
        omega
      rw [none, Nat.zero_mul]
      exact iff_of_false (Nat.not_lt_zero _) (Nat.not_lt_zero _)
    · rw [toNat_packedPosition_of_few few fits inRows inColumns, packedPlace_lt_iff inRows]
  constructor
  case inside => exact inside
  case distinct =>
    constructor
    · intro apart
      by_contra other
      obtain ⟨many, some⟩ := not_or.mp other
      have wide := Nat.not_le.mp many
      have positive := toNat_pos_of_ne_zero some
      -- the position of the first weight comes again after `2 ^ 60` rows
      have again : packedPosition outFeatures (UInt64.ofNat 0) (UInt64.ofNat 0) =
          packedPosition outFeatures (UInt64.ofNat (2 ^ 60)) (UInt64.ofNat 0) := by
        simp [packedPosition, packTile]
      have same := (apart 0 (by omega) 0 positive (2 ^ 60) wide 0 positive (by rw [again])).1
      contradiction
    · rintro (few | none) row inRows column inColumns otherRow otherInRows otherColumn
        otherInColumns same
      · have position := congrArg UInt64.toNat (View.byteAddress_inj same)
        rw [toNat_packedPosition_of_few few fits inRows inColumns,
          toNat_packedPosition_of_few few fits otherInRows otherInColumns] at position
        exact packedPlace_inj inRows otherInRows position
      · rw [none] at inColumns
        contradiction
  case only =>
    intro tiled mem other agree row inRows column inColumns
    obtain ⟨tiles, count⟩ := toNat_of_tiled tiled
    have whole := (inside row inRows column inColumns).mpr (by omega)
    rw [packedNumber, packedNumber, agree _ whole]

theorem packedProduct_reads_tile :
    let numbers (shape : Shape) : Tensor := .covering 0 (.float .f32) shape
    let packed : Tensor := .covering 1 .i32 [1, 64]
    packedProductChecks (numbers [1, 16]).toView (numbers [1, 16]).toView packed.toView
        (numbers [16]).toView 16 16 = .ok () ∧
      PackedReads packed.toView 16 16 := by
  intro numbers packed
  have passed : packedProductChecks (numbers [1, 16]).toView (numbers [1, 16]).toView packed.toView
      (numbers [16]).toView 16 16 = .ok () := rfl
  exact ⟨passed, packedProduct_reads passed (by decide)⟩

/-- Room for a single number, a row of sixteen zeros and a one, a storage whose first sixteen bytes are
a packed operand, with a one in the byte after it, and a scale. -/
def withTail : Machine :=
  .holding #[Array.replicate 4 0, Array.replicate 64 0 ++ #[0, 0, 0x80, 0x3F],
    Array.replicate 16 0x30 ++ #[0x38] ++ Array.replicate 15 0, #[0, 0, 0x80, 0x3F]]

/-- A seventeenth input feature is read from the byte after the operand, and counts. -/
theorem packedProduct_reads_tail :
    let numbers (storage : Nat) (shape : Shape) : Tensor := .covering storage (.float .f32) shape
    let packed : Tensor := .covering 2 .i32 [1, 4]
    packed.byteCount = 16 ∧ packedPosition 1 0 16 = 16 ∧
      ∃ after, packedProductInto (some (numbers 0 [1, 1])) (some (numbers 1 [1, 17])) (some packed)
        (some (numbers 3 [1])) 1 17 withTail = .ok () after ∧
        after.memory.number (numbers 0 [1, 1]).toView .f32 [0, 0] = Binary32.one := by
  intro numbers packed
  refine ⟨by decide, by decide, ?_⟩
  have returns : (match packedProductInto (some (numbers 0 [1, 1])) (some (numbers 1 [1, 17]))
      (some packed) (some (numbers 3 [1])) 1 17 withTail with
    | .ok _ after => after.memory.number (numbers 0 [1, 1]).toView .f32 [0, 0] == Binary32.one
    | .error _ _ => false) = true := by decide +kernel
  split at returns
  · next after returned => exact ⟨after, returned, beq_iff_eq.mp returns⟩
  · cases returns

end Positions

end Kernel

end QuantLinear
