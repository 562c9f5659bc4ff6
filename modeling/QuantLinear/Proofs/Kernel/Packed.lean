import QuantLinear.Proofs.Kernel.Product

/-!
What the kernels of packed weights write.

Packing puts each byte of the weight at a position of its own, so that the number at a row and a
column of the packed form is the one that the weight shows there (`runRepack_spec`).
-/

namespace QuantLinear

theorem toNat_of_tiled {columns : UInt64} (tiled : columns % packTile = 0) :
    ∃ tiles, columns.toNat = 16 * tiles := by
  have word := congrArg UInt64.toNat tiled
  rw [UInt64.toNat_mod] at word
  exact Nat.dvd_of_mod_eq_zero word

/-- The position of a weight in the packed form: tile columns come one after another, and within
one the rows of sixteen bytes. -/
def packedPlace (rows row column : Nat) : Nat := column / 16 * (16 * rows) + (row * 16 + column % 16)

/-- Weights are packed to positions of their own. -/
theorem packedPlace_inj {rows row column otherRow otherColumn : Nat} (inRows : row < rows)
    (otherInRows : otherRow < rows)
    (same : packedPlace rows row column = packedPlace rows otherRow otherColumn) :
    row = otherRow ∧ column = otherColumn := by
  -- tile columns are told apart by the quotient, and the places within one by the remainder
  have low : row * 16 + column % 16 < 16 * rows := by omega
  have otherLow : otherRow * 16 + otherColumn % 16 < 16 * rows := by omega
  have some : 0 < 16 * rows := by omega
  have tiles := congrArg (· / (16 * rows)) same
  have rest := congrArg (· % (16 * rows)) same
  simp only [packedPlace, Nat.mul_comm _ (16 * rows), Nat.mul_add_div some, Nat.mul_add_mod,
    Nat.div_eq_of_lt low, Nat.div_eq_of_lt otherLow, Nat.mod_eq_of_lt low,
    Nat.mod_eq_of_lt otherLow] at tiles rest
  omega

/-- A position that does not wrap is a place. -/
theorem toNat_packedPosition_of_lt {rows : UInt64} {row column : Nat} (small : column < 2 ^ 64)
    (wide : rows.toNat * 16 < 2 ^ 64 ∨ column < 16)
    (fits : packedPlace rows.toNat row column < 2 ^ 64) :
    (packedPosition rows (UInt64.ofNat row) (UInt64.ofNat column)).toNat =
      packedPlace rows.toNat row column := by
  rw [packedPlace] at fits ⊢
  have columnWord : (UInt64.ofNat column).toNat = column := by
    rw [UInt64.toNat_ofNat', Nat.mod_eq_of_lt small]
  have rowWord : (UInt64.ofNat row).toNat = row := by
    rw [UInt64.toNat_ofNat', Nat.mod_eq_of_lt (by omega)]
  have sixteen : packTile.toNat = 16 := rfl
  -- the width of a tile column counts only behind the first one
  have width : column / 16 * (rows.toNat * 16 % 2 ^ 64) = column / 16 * (16 * rows.toNat) := by
    rcases wide with wide | first
    · rw [Nat.mod_eq_of_lt wide, Nat.mul_comm rows.toNat]
    · rw [Nat.div_eq_of_lt first, Nat.zero_mul, Nat.zero_mul]
  simp only [packedPosition, UInt64.toNat_add, UInt64.toNat_mul, UInt64.toNat_div, UInt64.toNat_mod,
    columnWord, rowWord, sixteen, width]
  omega

/-- Where positions do not wrap, the packed form holds each weight at its place. -/
theorem toNat_packedPosition {rows columns : UInt64} (tiled : columns % packTile = 0)
    (fits : rows.toNat * columns.toNat < 2 ^ 64) {row column : Nat} (inRows : row < rows.toNat)
    (inColumns : column < columns.toNat) :
    (packedPosition rows (UInt64.ofNat row) (UInt64.ofNat column)).toNat =
        packedPlace rows.toNat row column ∧
      packedPlace rows.toNat row column < rows.toNat * columns.toNat := by
  obtain ⟨tiles, count⟩ := toNat_of_tiled tiled
  -- the tile column ends within the packed form
  have tile : column / 16 < tiles := by omega
  have before : (column / 16 + 1) * (16 * rows.toNat) ≤ tiles * (16 * rows.toNat) :=
    Nat.mul_le_mul_right _ tile
  have total : tiles * (16 * rows.toNat) = rows.toNat * columns.toNat := by
    rw [count, Nat.mul_comm, Nat.mul_comm 16, Nat.mul_assoc]
  rw [Nat.succ_mul, total] at before
  have below : packedPlace rows.toNat row column < rows.toNat * columns.toNat := by
    rw [packedPlace]
    omega
  refine ⟨toNat_packedPosition_of_lt (Nat.lt_trans inColumns columns.toNat_lt) (.inl ?_)
    (Nat.lt_trans below fits), below⟩
  omega

/-- The bytes of a packed form: whole tiles of all output features for whole tiles of input features. -/
theorem count_packedShape_of_lt {rows columns : UInt64}
    (wide : rows.toNat * 16 < 2 ^ 64 ∨ columns.toNat < 16) :
    (packedShape rows columns).count * ElementKind.i32.size =
      columns.toNat / 16 * (16 * rows.toNat) := by
  have sixteen : packTile.toNat = 16 := rfl
  have four : (4 : UInt64).toNat = 4 := rfl
  simp only [packedShape, Shape.count_cons, Shape.count_nil, UInt64.toNat_div, UInt64.toNat_mul,
    sixteen, four, ElementKind.size, Nat.mul_one]
  rcases wide with wide | few
  · have words : rows.toNat * 16 / 4 = rows.toNat * 4 := by omega
    rw [Nat.mod_eq_of_lt wide, words, Nat.mul_assoc]
    congr 1
    omega
  · rw [Nat.div_eq_of_lt few, Nat.zero_mul, Nat.zero_mul, Nat.zero_mul]

/-- The packed form of a tiled weight has one byte for each weight. -/
theorem count_packedShape {rows columns : UInt64} (tiled : columns % packTile = 0)
    (fits : rows.toNat * columns.toNat < 2 ^ 64) :
    (packedShape rows columns).count * ElementKind.i32.size = rows.toNat * columns.toNat := by
  obtain ⟨tiles, count⟩ := toNat_of_tiled tiled
  rw [count_packedShape_of_lt, count, Nat.mul_div_cancel_left tiles (by decide), Nat.mul_comm,
    Nat.mul_comm 16, Nat.mul_assoc]
  rcases Nat.eq_zero_or_pos tiles with none | some
  · right
    omega
  · left
    refine Nat.lt_of_le_of_lt (Nat.mul_le_mul_left _ ?_) fits
    omega

namespace Kernel

open Memory

theorem evolves_runRepack {target weight : View} {mem after : Memory}
    (ran : runRepack target weight mem = .ok after) : mem.Evolves [target.storage] after := by
  simp only [runRepack, bind_eq_ok, require_eq_ok] at ran
  obtain ⟨_, _, _, _, _, _, ran⟩ := ran
  split at ran
  · cases ran
    exact .refl _ _
  · rw [pure_eq_ok] at ran
    cases ran
    exact evolves_forRange (fun _ _ => evolves_forRange (fun _ _ => evolves_setByte ..) _) _

theorem evolves_runPackedProduct {target left packed scale : View} {outFeatures inFeatures : UInt64}
    {mem after : Memory}
    (ran : runPackedProduct target left packed scale outFeatures inFeatures mem = .ok after) :
    mem.Evolves [target.storage] after := by
  simp only [runPackedProduct, bind_eq_ok, require_eq_ok] at ran
  obtain ⟨_, _, _, _, _, _, _, _, _, _, _, _, ran⟩ := ran
  split at ran
  · cases ran
    exact .refl _ _
  · rw [bind_eq_ok] at ran
    obtain ⟨_, _, ran⟩ := ran
    split at ran
    · cases ran
      exact .refl _ _
    · simp only [bind_eq_ok, pure_eq_ok] at ran
      obtain ⟨_, _, rfl⟩ := ran
      exact evolves_forRange (fun _ _ => evolves_forRange (fun _ _ => evolves_store ..) _) _

/-- A weight that can be packed. -/
structure Packable (mem : Memory) (weight : View) (rows columns : UInt64) : Prop where
  has : mem.Has weight
  kind : weight.kind = .float .f8
  shape : weight.shape = [rows, columns]
  rowsTiled : rows % packTile = 0
  columnsTiled : columns % packTile = 0
  fits : rows.toNat * columns.toNat < 2 ^ 64

theorem Packable.later {changed : List Nat} {before after : Memory} {weight : View}
    {rows columns : UInt64} (packable : Packable before weight rows columns)
    (evolved : before.Evolves changed after) : Packable after weight rows columns :=
  { packable with has := packable.has.later evolved }

/-- A weight and a place for its packed form. -/
structure RepackOperands (mem : Memory) (target weight : View) (rows columns : UInt64) : Prop
    extends Packable mem weight rows columns where
  dense : mem.Dense target
  targetKind : target.kind = .i32
  targetShape : target.shape = packedShape rows columns
  apart : weight.storage ≠ target.storage

section Repack

variable {mem mid : Memory} {target weight : View} {rows columns : UInt64} {row column : Nat}

/-- How far packing has come: the columns below `column` of a row, and all rows before it. -/
structure Packed (mem : Memory) (target weight : View) (rows columns : UInt64) (row column : Nat)
    (mid : Memory) : Prop where
  evolved : mem.Evolves [target.storage] mid
  bytes : ∀ i < rows.toNat, ∀ j < columns.toNat, i < row ∨ i = row ∧ j < column →
    mid.byte target.storage (packedPlace rows.toNat i j) =
      mem.byte weight.storage (weight.address [i, j])

namespace RepackOperands

theorem address (ready : RepackOperands mem target weight rows columns) (inRows : row < rows.toNat)
    (inColumns : column < columns.toNat) :
    target.byteAddress (packedPosition rows (UInt64.ofNat row) (UInt64.ofNat column)) =
      packedPlace rows.toNat row column := by
  rw [View.byteAddress, ready.dense.offset, UInt64.zero_add,
    (toNat_packedPosition ready.columnsTiled ready.fits inRows inColumns).1]

private theorem place_lt (ready : RepackOperands mem target weight rows columns)
    (inRows : row < rows.toNat)
    (inColumns : column < columns.toNat) :
    packedPlace rows.toNat row column < mem.size target.storage := by
  have room := ready.dense.room
  rw [ready.targetShape, ready.targetKind, count_packedShape ready.columnsTiled ready.fits] at room
  exact Nat.lt_of_lt_of_le
    (toNat_packedPosition ready.columnsTiled ready.fits inRows inColumns).2 room

end RepackOperands

/-- Packing one more byte. -/
theorem Packed.next (ready : RepackOperands mem target weight rows columns)
    (before : Packed mem target weight rows columns row column mid) (inRows : row < rows.toNat)
    (inColumns : column < columns.toNat) :
    Packed mem target weight rows columns row (column + 1)
      (mid.setByte target.storage
        (target.byteAddress (packedPosition rows (UInt64.ofNat row) (UInt64.ofNat column)))
        (mid.byte weight.storage (weight.address [row, column]))) where
  evolved := before.evolved.same (evolves_setByte ..)
  bytes i iRows j jColumns reached := by
    have source : mid.byte weight.storage (weight.address [row, column]) =
        mem.byte weight.storage (weight.address [row, column]) := by
      rw [byte, before.evolved.contents _ ready.has.stored (by simpa using ready.apart), byte]
    rw [ready.address inRows inColumns, source, byte_setByte]
    split
    · next here =>
      obtain ⟨rfl, rfl⟩ := packedPlace_inj inRows iRows here.2.1
      rfl
    · next elsewhere =>
      refine before.bytes i iRows j jColumns ?_
      -- the byte just written is the only new one
      rcases reached with earlier | ⟨same, below⟩
      · exact .inl earlier
      · refine .inr ⟨same, Nat.lt_of_le_of_ne (Nat.le_of_lt_succ below) fun last => elsewhere ?_⟩
        refine ⟨rfl, by rw [same, last], ?_⟩
        rw [before.evolved.size _ ready.dense.stored]
        exact ready.place_lt iRows jColumns

/-- Packing all bytes of a weight, row by row. -/
def packRows (target weight : View) (rows columns : UInt64) (mem : Memory) : Memory :=
  forRange 0 rows.toNat mem fun mid row =>
    forRange 0 columns.toNat mid fun mid column =>
      mid.setByte target.storage
        (target.byteAddress (packedPosition rows (UInt64.ofNat row) (UInt64.ofNat column)))
        (mid.byte weight.storage (weight.address [row, column]))

/-- A weight that can be packed is packed row by row. -/
theorem runRepack_eq (ready : RepackOperands mem target weight rows columns) :
    runRepack target weight mem = .ok (packRows target weight rows columns mem) := by
  have extents := View.extent_pair ready.shape
  simp only [runRepack, View.rank, ready.kind, ready.shape, extents.1, extents.2, ready.rowsTiled,
    ready.columnsTiled, ready.targetKind, ready.targetShape, ready.dense.isContiguous,
    List.length_cons, List.length_nil, BEq.rfl, Bool.and_self, require, if_true]
  split
  · next none =>
    -- the kernel returns early on a weight without columns
    rw [packRows, forRange_empty (.inr none)]
    rfl
  · rfl

/-- The packed form holds the bytes of the weight. -/
theorem packRows_bytes (ready : RepackOperands mem target weight rows columns) :
    ∀ row < rows.toNat, ∀ column < columns.toNat,
      (packRows target weight rows columns mem).byte target.storage
          (packedPlace rows.toNat row column) =
        mem.byte weight.storage (weight.address [row, column]) := by
  -- the bytes of all weights before the one that the loops have come to are in place
  have done := forRange_induction
    (fun row later => Packed mem target weight rows columns row 0 later)
    (Nat.zero_le rows.toNat) mem
    (fun mid row => forRange 0 columns.toNat mid fun mid column =>
      mid.setByte target.storage
        (target.byteAddress (packedPosition rows (UInt64.ofNat row) (UInt64.ofNat column)))
        (mid.byte weight.storage (weight.address [row, column])))
    ⟨.refl _ _, fun i _ j _ reached => by omega⟩
    fun row later _ inRows reached => by
      have filled := forRange_induction
        (fun column later => Packed mem target weight rows columns row column later)
        (Nat.zero_le columns.toNat) later _ reached
        fun column later _ inColumns reached => reached.next ready inRows inColumns
      exact ⟨filled.evolved, fun i iRows j jColumns below =>
        filled.bytes i iRows j jColumns (by omega)⟩
  exact fun row inRows column inColumns => done.bytes row inRows column inColumns (.inl inRows)

/-- The packed form shows the numbers of the weight. -/
theorem runRepack_spec (ready : RepackOperands mem target weight rows columns) :
    ∃ after, runRepack target weight mem = .ok after ∧
      ∀ row < rows.toNat, ∀ column < columns.toNat,
        packedNumber after target rows row column = mem.number weight .f8 [row, column] := by
  refine ⟨_, runRepack_eq ready, fun row inRows column inColumns => ?_⟩
  have read := packRows_bytes ready row inRows column inColumns
  have single : ElementKind.size (.float .f8) = 1 := rfl
  simp only [packedNumber, ready.address inRows inColumns, read, number, load, wordAt, ready.kind,
    single, readBytes, List.range_one, List.map_cons, List.map_nil, wordOfBytes, Nat.add_zero,
    Nat.mul_zero]

end Repack

/-- An entry of the product with a packed weight depends on the numbers of its row and the scaled ones
of its output feature alone. -/
theorem packedEntry_congr {depth : Nat} {left otherLeft weight otherWeight : Nat → Binary32}
    (sameLeft : ∀ p < depth, left p = otherLeft p)
    (sameWeight : ∀ p < depth, weight p = otherWeight p) :
    packedEntry depth left weight = packedEntry depth otherLeft otherWeight := by
  rw [packedEntry, packedEntry, accumulate_congr fun p _ inDepth => by
    rw [sameLeft p inDepth, sameWeight p inDepth]]

/-- The entries of a product with a packed weight. -/
theorem runPackedProduct_spec {mem : Memory} {target left packed scale : View}
    {rows outFeatures inFeatures : UInt64} {kind leftKind scaleKind : FloatKind}
    (separate : mem.Separate target) (targetShape : target.shape = [rows, outFeatures])
    (targetKind : target.kind = .float kind) (leftFloat : left.kind = .float leftKind)
    (wide : left.kind.isWideFloating = true) (leftShape : left.shape = [rows, inFeatures])
    (leftLayout : left.isRowMajor = true) (packedKind : packed.kind = .i32)
    (packedLayout : packed.isContiguous = true)
    (shape : packed.shape = packedShape outFeatures inFeatures)
    (scaleFloat : scale.kind = .float scaleKind) (scaleLayout : scale.isContiguous = true)
    (scaleCount : scale.numel = outFeatures) :
    ∃ after,
      runPackedProduct target left packed scale outFeatures inFeatures mem = .ok after ∧
      ∀ row < rows.toNat, ∀ column < outFeatures.toNat, after.load target [row, column] =
        kind.encode (packedEntry inFeatures.toNat (fun p => mem.number left leftKind [row, p])
          fun p => packedNumber mem packed outFeatures column p *
            mem.scaleNumber scale scaleKind column) := by
  have leftExtents := View.extent_pair leftShape
  have targetExtents := View.extent_pair targetShape
  have rank : target.rank = 2 := by
    rw [View.rank, targetShape]
    rfl
  -- the kernel unpacks the weight once, each number with its scale
  let weight := Matrix.tabulate outFeatures.toNat inFeatures.toNat fun row column =>
    packedNumber mem packed outFeatures row column * mem.scaleNumber scale scaleKind row
  have unpacked (column : Nat) (inColumns : column < outFeatures.toNat) (p : Nat)
      (inDepth : p < inFeatures.toNat) : weight.entry column p =
        packedNumber mem packed outFeatures column p * mem.scaleNumber scale scaleKind column := by
    rw [Matrix.entry_tabulate, if_pos ⟨inColumns, inDepth⟩]
  have read (row : Nat) (inRows : row < rows.toNat) (p : Nat) (inDepth : p < inFeatures.toNat) :
      (mem.numbers left leftKind).entry row p = mem.number left leftKind [row, p] :=
    mem.entry_numbers left leftKind (by rwa [leftExtents.1]) (by rwa [leftExtents.2])
  obtain ⟨-, written⟩ := Filled.matrix separate targetShape
    (fun row column => kind.encode (packedEntry inFeatures.toNat
      (fun p => mem.number left leftKind [row, p])
      fun p => packedNumber mem packed outFeatures column p *
        mem.scaleNumber scale scaleKind column))
    (fun _ row mid column => mid.setNumber target kind [row, column]
      (packedEntry inFeatures.toNat ((mem.numbers left leftKind).entry row) (weight.entry column)))
    (fun _ _ => by rw [targetKind]; exact kind.encode_lt _)
    fun first mid _ _ row inRows column inColumns => by
      rw [setNumber, packedEntry_congr (read row inRows) (unpacked column inColumns)]
  refine ⟨_, ?_, written⟩
  rw [leftFloat] at wide
  simp only [runPackedProduct, leftFloat, wide, leftLayout, leftExtents.1, leftExtents.2, packedKind,
    packedLayout, shape, scaleFloat, scaleLayout, scaleCount, rank, targetExtents.1,
    targetExtents.2, targetKind, BEq.rfl, Bool.and_self, require, if_true, ElementKind.decodable,
    ElementKind.encodable]
  simp only [pure_bind]
  split
  · next none =>
    rw [forRange_empty (.inr none)]
    rfl
  · split
    · next none =>
      rw [none]
      rfl
    · rfl

end Kernel

end QuantLinear
