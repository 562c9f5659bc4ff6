import QuantLinear.Proofs.Materialize
import QuantLinear.Proofs.Operations

/-!
Packing a weight, and multiplying with its packed form.

The packing kernel writes each byte of the packed form once, and the product reads the bytes at the
same positions. So the packed form loses nothing of the weight, and what the product stores is what
the same sums give on the weight as it was before it was packed.
-/

namespace QuantLinear

open QuantLinear.Action

/-- The place of the byte at an index of a weight with the given number of rows. -/
def packedPlaceAt (rows : Nat) (index : Index) : Nat :=
  packedPlace rows (index.getD 0 0) (index.getD 1 0)

/-- The weights of a tiled shape are packed to all places of the packed form, each to one. -/
private theorem packedPlaces_perm {rows columns : UInt64} (tiled : columns % packTile = 0)
    (fits : rows.toNat * columns.toNat < 2 ^ 64) :
    ((Shape.indices [rows, columns]).map (packedPlaceAt rows.toNat)).Perm
      (List.range (rows.toNat * columns.toNat)) := by
  have member (index : Index) (there : index ∈ Shape.indices [rows, columns]) :
      ∃ row < rows.toNat, ∃ column < columns.toNat, index = [row, column] :=
    Shape.within_pair.mp ((Shape.mem_indices _ _).mp there)
  apply perm_range_iff.mpr
  refine ⟨?_, ?_, ?_⟩
  · rw [List.length_map, Shape.indices_eq_positions, Shape.length_positions, Shape.count_pair]
  · intro place there
    obtain ⟨index, here, rfl⟩ := List.mem_map.mp there
    obtain ⟨row, inRows, column, inColumns, rfl⟩ := member index here
    exact (toNat_packedPosition tiled fits inRows inColumns).2
  · refine List.Nodup.map_on (fun first here second there same => ?_) (Shape.nodup_indices _)
    obtain ⟨row, inRows, column, -, rfl⟩ := member first here
    obtain ⟨otherRow, otherInRows, otherColumn, -, rfl⟩ := member second there
    obtain ⟨rfl, rfl⟩ := packedPlace_inj inRows otherInRows same
    rfl

/-- Bytes written to a storage one after another, each byte of the storage once. -/
structure WrittenOnce (before : Memory) (storage : Nat) (writes : List (Nat × UInt8))
    (after : Memory) : Prop where
  written : after = writes.foldl (fun mem write => mem.setByte storage write.1 write.2) before
  once : (writes.map (·.1)).Perm (List.range (after.size storage))

/-- The bytes of a weight with their places in the packed form. -/
def packedWrites (mem : Memory) (weight : View) (rows columns : UInt64) : List (Nat × UInt8) :=
  (Shape.indices [rows, columns]).map fun index =>
    (packedPlaceAt rows.toNat index, mem.byte weight.storage (weight.address index))

namespace Kernel

variable {mem : Memory} {target weight : View} {rows columns : UInt64}

/-- Packing writes the bytes of the weight, read as they were before the first write. -/
private theorem packRows_eq_writes (ready : RepackOperands mem target weight rows columns) :
    packRows target weight rows columns mem = (packedWrites mem weight rows columns).foldl
      (fun mid write => mid.setByte target.storage write.1 write.2) mem := by
  rw [packedWrites, List.foldl_map, packRows]
  refine (forRange_indices rows columns (fun mid index => mid.setByte target.storage
    (target.byteAddress (packedPosition rows (UInt64.ofNat (index.getD 0 0))
      (UInt64.ofNat (index.getD 1 0))))
    (mid.byte weight.storage (weight.address index))) mem).trans ?_
  refine foldl_congr_of_invariant (mem.Evolves [target.storage]) _
    (fun index there mid evolved => ⟨?_, evolved.same (Memory.evolves_setByte ..)⟩) (.refl _ _)
  obtain ⟨row, inRows, column, inColumns, rfl⟩ :=
    Shape.within_pair.mp ((Shape.mem_indices _ _).mp there)
  -- the weight lies elsewhere, so its bytes are still there
  have source : mid.byte weight.storage (weight.address [row, column]) =
      mem.byte weight.storage (weight.address [row, column]) := by
    rw [Memory.byte, evolved.contents _ ready.has.stored (by simpa using ready.apart), Memory.byte]
  have place := ready.address inRows inColumns
  simp only [List.getD_cons_zero, List.getD_cons_succ, place, source, packedPlaceAt]

end Kernel

/-- The packed form of a weight, written once into new bytes. -/
structure PackedBytes (before : Memory) (weight packed : Tensor) (rows columns : UInt64)
    (after : Memory) : Prop where
  kind : packed.kind = .i32
  shape : packed.shape = packedShape rows columns
  extents : columns ≠ 0 → packed.shape.map UInt64.toNat = [columns.toNat / 16, rows.toNat * 4]
  layout : packed.isContiguous = true
  device : packed.device = weight.device
  size : after.size packed.storage = rows.toNat * columns.toNat
  writes : WrittenOnce (before.allocate (Array.replicate (rows.toNat * columns.toNat) 0))
    packed.storage (packedWrites before weight.toView rows columns) after
  bytes : ∀ row < rows.toNat, ∀ column < columns.toNat,
    after.byte packed.storage (packedPlace rows.toNat row column) =
      before.byte weight.storage (weight.address [row, column])

private theorem toNat_packedShape {rows columns : UInt64} (some : columns ≠ 0)
    (tiled : columns % packTile = 0) (fits : rows.toNat * columns.toNat < 2 ^ 64) :
    (packedShape rows columns).map UInt64.toNat = [columns.toNat / 16, rows.toNat * 4] := by
  obtain ⟨tiles, count⟩ := toNat_of_tiled tiled
  have positive := toNat_pos_of_ne_zero some
  have sixteen : packTile.toNat = 16 := rfl
  have four : (4 : UInt64).toNat = 4 := rfl
  have wide : rows.toNat * 16 < 2 ^ 64 := by
    refine Nat.lt_of_le_of_lt (Nat.mul_le_mul_left _ ?_) fits
    omega
  simp only [packedShape, List.map_cons, List.map_nil, UInt64.toNat_div, UInt64.toNat_mul, sixteen,
    four, Nat.mod_eq_of_lt wide, List.cons.injEq, and_true, true_and]
  omega

private theorem Repacked.packedBytes {before middle after : Machine} {weight packed : Tensor}
    (made : Repacked before weight packed middle after) {rows columns : UInt64}
    (packable : Kernel.Packable before.memory weight.toView rows columns) :
    PackedBytes before.memory weight packed rows columns after.memory := by
  have ready := made.placed.repackOperands packable
  have fresh := made.fresh
  have filled : after.memory = Kernel.packRows packed.toView weight.toView rows columns
      middle.memory := by
    have same := (Kernel.runRepack_eq ready).symm.trans made.ran
    exact (Except.ok.inj same).symm
  have source (index : Index) : middle.memory.byte weight.storage (weight.address index) =
      before.memory.byte weight.storage (weight.address index) := by
    rw [Memory.byte, made.placed.follows.memory.contents _ packable.has.stored List.not_mem_nil,
      Memory.byte]
  have extents := View.extent_pair packable.shape
  have shape := fresh.shape_eq
  have count := count_packedShape packable.columnsTiled packable.fits
  rw [extents.1, extents.2] at shape
  have size : after.memory.size packed.storage = rows.toNat * columns.toNat := by
    have bytes := fresh.size_of_lt
    rw [extents.1, extents.2, count] at bytes
    exact bytes packable.fits
  have blank := made.blank
  rw [extents.1, extents.2, count, Nat.mod_eq_of_lt packable.fits] at blank
  have written := Kernel.packRows_eq_writes ready
  rw [← filled] at written
  exact {
    kind := fresh.kind_eq
    shape := shape
    extents := fun some => by rw [shape, toNat_packedShape some packable.columnsTiled packable.fits]
    layout := fresh.isContiguous
    device := fresh.device_eq
    size := size
    writes := by
      rw [← blank]
      refine ⟨?_, ?_⟩
      · rw [written]
        simp only [packedWrites, source]
      · rw [size, packedWrites, List.map_map]
        exact packedPlaces_perm packable.columnsTiled packable.fits
    bytes := fun row inRows column inColumns => by
      rw [filled, Kernel.packRows_bytes ready row inRows column inColumns, source] }

/-- Operands that a product with a packed weight takes. -/
structure PackedOperands (machine : Machine) (target left packed scale : Tensor)
    (rows outFeatures inFeatures : UInt64) (kind leftKind scaleKind : FloatKind) : Prop where
  serves : machine.Serves target.device
  devices : ∀ operand ∈ [left, packed, scale], target.device = operand.device
  separate : machine.memory.Separate target.toView
  targetShape : target.shape = [rows, outFeatures]
  targetKind : target.kind = .float kind
  leftFloat : left.kind = .float leftKind
  wide : left.kind.isWideFloating = true
  leftShape : left.shape = [rows, inFeatures]
  leftLayout : left.isRowMajor = true
  scaleHas : machine.memory.Has scale.toView
  scaleFloat : scale.kind = .float scaleKind
  scaleLayout : scale.isContiguous = true
  scaleCount : scale.shape.count = outFeatures.toNat

section Product

variable {machine : Machine} {target left packed scale : Tensor}
  {rows outFeatures inFeatures : UInt64} {kind leftKind scaleKind : FloatKind}

private theorem PackedOperands.numel_scale
    (ready : PackedOperands machine target left packed scale rows outFeatures inFeatures kind leftKind
      scaleKind) : scale.numel = outFeatures := by
  apply UInt64.toNat_inj.mp
  rw [View.numel, Shape.toNat_numel_of_lt (by rw [ready.scaleCount]; exact UInt64.toNat_lt _),
    ready.scaleCount]

/-- Scales for all output features serve one each, in row-major order. -/
theorem PackedOperands.scaleNumber
    (ready : PackedOperands machine target left packed scale rows outFeatures inFeatures kind leftKind
      scaleKind) {j : Nat} (below : j < outFeatures.toNat) :
    machine.memory.scaleNumber scale.toView scaleKind j =
      machine.memory.number scale.toView scaleKind (scale.shape.indexAt j) := by
  rw [← Kernel.servingIndex_eq_indexAt ready.numel_scale below]
  exact Kernel.scaleNumber_served ready.scaleHas ready.scaleLayout
    (.inr (by rwa [ready.numel_scale]))

private theorem Kernel.packedEntry_eq {α : Type} [Zero α] [Add α] [Mul α] (depth : Nat)
    (left weight : Nat → α) : Kernel.packedEntry depth left weight =
      (List.range depth).foldl (fun total p => total + left p * weight p) 0 := by
  rw [Kernel.packedEntry, accumulate, forRange, Nat.sub_zero, List.range_eq_range']

/-- A product with a packed weight returns, and stores the sums over the packed numbers. -/
private theorem packedProductInto_spec
    (ready : PackedOperands machine target left packed scale rows outFeatures inFeatures kind leftKind
      scaleKind)
    (packedKind : packed.kind = .i32) (packedLayout : packed.isContiguous = true)
    (shape : packed.shape = packedShape outFeatures inFeatures) :
    ∃ final, packedProductInto (some target) (some left) (some packed) (some scale) outFeatures
        inFeatures machine = .ok () final ∧
      machine.Follows [target.storage] final ∧
      ∀ i < rows.toNat, ∀ j < outFeatures.toNat, final.memory.load target.toView [i, j] =
        kind.encode ((List.range inFeatures.toNat).foldl (fun total p =>
          total + machine.memory.number left.toView leftKind [i, p] *
            (Kernel.packedNumber machine.memory packed.toView outFeatures j p *
              machine.memory.number scale.toView scaleKind (scale.shape.indexAt j))) 0) := by
  obtain ⟨mem, ran, entries⟩ := Kernel.runPackedProduct_spec ready.separate ready.targetShape
    ready.targetKind ready.leftFloat ready.wide ready.leftShape ready.leftLayout packedKind packedLayout
    shape ready.scaleFloat ready.scaleLayout ready.numel_scale
  obtain ⟨⟨⟩, final, returned, followed, done⟩ :=
    (ends_packedProductInto target left packed scale outFeatures inFeatures machine).returned_of
      fun fault _ failed => by cases ran.symm.trans (failed.2 ready.serves ready.devices)
  refine ⟨final, returned, followed, fun i inRows j below => ?_⟩
  cases ran.symm.trans done
  rw [entries i inRows j below, Kernel.packedEntry_eq, ready.scaleNumber below]

end Product

/-- Packing a weight of whole tiles returns, and writes each byte of the packed form once. As long as
nobody writes to the packed form, any product with it stores the sums over the weight as it was
before, from the first input feature to the last. -/
theorem packed_weight_multiplies {machine : Machine} {weight : Tensor} {rows columns : UInt64}
    (packable : Kernel.Packable machine.memory weight.toView rows columns)
    (serves : machine.Serves weight.device) :
    ∃ packed after, repacked (some weight) machine = .ok packed after ∧ machine.Follows [] after ∧
      PackedBytes machine.memory weight packed rows columns after.memory ∧
      ∀ (later : Machine) (target left scale : Tensor) (batch : UInt64)
        (kind leftKind scaleKind : FloatKind),
        later.memory.contents packed.storage = after.memory.contents packed.storage →
        PackedOperands later target left packed scale batch rows columns kind leftKind scaleKind →
        ∃ final, packedProductInto (some target) (some left) (some packed) (some scale) rows columns
            later = .ok () final ∧
          later.Follows [target.storage] final ∧
          ∀ i < batch.toNat, ∀ j < rows.toNat, final.memory.load target.toView [i, j] =
            kind.encode ((List.range columns.toNat).foldl (fun total p =>
              total + later.memory.number left.toView leftKind [i, p] *
                (machine.memory.number weight.toView .f8 [j, p] *
                  later.memory.number scale.toView scaleKind (scale.shape.indexAt j))) 0) := by
  obtain ⟨packed, after, returned, middle, made⟩ :=
    (ends_repacked weight machine).returned_of fun _ _ failed => failed.2 serves rows columns packable
  have form := made.packedBytes packable
  refine ⟨packed, after, returned, made.fresh.follows, form, ?_⟩
  intro later target left scale batch kind leftKind scaleKind kept ready
  obtain ⟨final, multiplied, followed, entries⟩ :=
    packedProductInto_spec ready form.kind form.layout form.shape
  refine ⟨final, multiplied, followed, fun i inRows j below => ?_⟩
  -- the product reads the bytes that packing wrote
  have read (p : Nat) (inDepth : p < columns.toNat) :
      Kernel.packedNumber later.memory packed.toView rows j p =
        machine.memory.number weight.toView .f8 [j, p] := by
    rw [← made.numbers packable j below p inDepth]
    simp only [Kernel.packedNumber, Memory.byte, kept]
  rw [entries i inRows j below]
  congr 1
  refine foldl_congr_of_invariant (fun _ => True) _ (fun p member total _ => ⟨?_, trivial⟩) trivial
  rw [read p (List.mem_range.mp member)]

/-- A machine with room for a weight of one tile and for what a product with it takes. -/
def Machine.withTile : Machine :=
  { Machine.initial with
    memory := ((Memory.empty.allocate (Array.replicate 256 0x38)).allocate
      (Array.replicate 64 0)).allocate (Array.replicate 64 0) |>.allocate (Array.replicate 64 0)
    handles := 4 }

/-- A weight of one tile whose columns lie one after another. -/
def tileWeight : Tensor where
  kind := .float .f8
  shape := [16, 16]
  strides := [1, 16]
  storage := 0
  offset := 0
  device := .host
  handle := 0

/-- A row of sixteen numbers in a storage of its own. -/
def tileRow (storage : Nat) : Tensor where
  kind := .float .f32
  shape := [1, 16]
  strides := [16, 1]
  storage := storage
  offset := 0
  device := .host
  handle := storage

theorem packed_weight_multiplies_tile : ∃ packed after final,
    repacked (some tileWeight) .withTile = .ok packed after ∧
      packedProductInto (some (tileRow 1)) (some (tileRow 2)) (some packed) (some (tileRow 3)) 16 16
        after = .ok () final ∧
      ∀ j < 16, final.memory.load (tileRow 1).toView [0, j] =
        FloatKind.f32.encode ((List.range 16).foldl (fun total p =>
          total + after.memory.number (tileRow 2).toView .f32 [0, p] *
            (Machine.withTile.memory.number tileWeight.toView .f8 [j, p] *
              after.memory.number (tileRow 3).toView .f32 (Shape.indexAt [1, 16] j))) 0) := by
  have serves : Machine.withTile.Serves .host := ⟨⟨rfl, fun _ => rfl⟩, rfl⟩
  have packable : Kernel.Packable Machine.withTile.memory tileWeight.toView 16 16 :=
    ⟨⟨rfl, by decide⟩, rfl, rfl, by decide, by decide, by decide⟩
  have room : Machine.withTile.memory.Dense (tileRow 1).toView :=
    ⟨rfl, rfl, by decide, by decide, by decide⟩
  obtain ⟨packed, after, returned, followed, form, product⟩ :=
    packed_weight_multiplies packable serves
  have ready : PackedOperands after (tileRow 1) (tileRow 2) packed (tileRow 3) 1 16 16 .f32 .f32
      .f32 := {
    serves := serves.later followed
    devices := by
      simp only [List.forall_mem_cons, form.device]
      exact ⟨rfl, rfl, rfl, fun _ none => by cases none⟩
    separate := (room.later followed.memory).separate
    targetShape := rfl
    targetKind := rfl
    leftFloat := rfl
    wide := rfl
    leftShape := rfl
    leftLayout := rfl
    scaleHas := Memory.Has.later ⟨rfl, by decide⟩ followed.memory
    scaleFloat := rfl
    scaleLayout := rfl
    scaleCount := rfl }
  obtain ⟨final, multiplied, -, entries⟩ :=
    product after (tileRow 1) (tileRow 2) (tileRow 3) 1 .f32 .f32 .f32 rfl ready
  exact ⟨packed, after, final, returned, multiplied, entries 0 Nat.one_pos⟩

end QuantLinear
