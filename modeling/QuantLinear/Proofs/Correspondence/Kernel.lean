import QuantLinear.Kernel.Elementwise
import QuantLinear.Kernel.Quantize
import QuantLinear.Proofs.Correspondence.Memory
import QuantLinear.Proofs.Enumeration

/-!
Kernels on corresponding memories.

A kernel that is run on paired storages of two memories reads the same numbers and writes the same
ones, so it fails on both for the same reason or on neither. A kernel may name a storage in none of
its faults, which is why these have the same texts.
-/

namespace QuantLinear

namespace Correspondence

/-- Kernels that keep memories in correspondence and fail for the same reasons. -/
def work (c : Correspondence) : Bond Memory Memory := ⟨c.Memories, Fault.Alike⟩

end Correspondence

open Correspondence

namespace Work

variable {c : Correspondence} {α : Type}

theorem parallel_same (computation : Except Fault α) :
    Parallel c.work Eq (liftM computation : Work α) (liftM computation) :=
  parallel_lift (.same .refl computation)

theorem parallel_require (condition : Bool) {fault other : Fault}
    (alike : fault.Alike other := by exact ⟨rfl, rfl⟩) :
    Parallel c.work (fun _ _ => True) (liftM (require condition fault) : Work Unit)
      (liftM (require condition other)) :=
  parallel_lift (.require alike)

theorem parallel_change {change other : Memory → Memory}
    (keeps : ∀ mem same, c.Memories mem same → c.Memories (change mem) (other same)) :
    Parallel c.work (fun _ _ => True) (modify change : Work Unit) (modify other) :=
  parallel_modify keeps

private theorem parallel_eachCell {rows columns : Nat} {step other : Nat → Nat → Work Unit}
    (each : ∀ row column, Parallel c.work (fun _ _ => True) (step row column) (other row column)) :
    Parallel c.work (fun _ _ => True) (eachCell rows columns step) (eachCell rows columns other) :=
  parallel_ite (fun _ => parallel_pure trivial) fun _ =>
    parallel_forM (fun row => parallel_forM (each row) _) _

private theorem parallel_eachIndex {step other : Index → Work Unit}
    (each : ∀ index, Parallel c.work (fun _ _ => True) (step index) (other index)) (shape : Shape) :
    Parallel c.work (fun _ _ => True) (shape.eachIndex step) (shape.eachIndex other) := by
  rw [Shape.eachIndex_eq_forM, Shape.eachIndex_eq_forM]
  exact parallel_forM each _

section Numbers

variable {v : View} {storage : Nat} (paired : c.Pairs v.storage storage)

include paired

private theorem parallel_number (index : Index) :
    Parallel c.work Eq (number v index) (number (v.over storage) index) := by
  refine (parallel_same v.kind.decodable).bind_same fun kind => ?_
  refine parallel_get.bind fun mem other alike => ?_
  exact parallel_pure (alike.number paired kind index).symm

private theorem parallel_scaleNumber (i : Nat) :
    Parallel c.work Eq (scaleNumber v i) (scaleNumber (v.over storage) i) := by
  refine (parallel_same v.kind.decodable).bind_same fun kind => ?_
  refine parallel_get.bind fun mem other alike => ?_
  exact parallel_pure (alike.scaleNumber paired kind i).symm

private theorem parallel_setNumber (index : Index) (x : Binary32) :
    Parallel c.work (fun _ _ => True) (setNumber v index x) (setNumber (v.over storage) index x) := by
  refine (parallel_same v.kind.encodable).bind_same fun kind => ?_
  exact parallel_change fun _ _ alike => alike.setNumber paired kind index x

private theorem parallel_rowPeak (row lo hi : Nat) :
    Parallel c.work Eq (rowPeak v row lo hi) (rowPeak (v.over storage) row lo hi) := by
  refine parallel_foldlM (fun peak column => ?_) _ _
  refine (parallel_number paired [row, column]).bind_same fun value => ?_
  exact parallel_pure rfl

end Numbers

section Elementwise

variable {target left right : View} {t l r : Nat} (targets : c.Pairs target.storage t)
  (lefts : c.Pairs left.storage l) (rights : c.Pairs right.storage r)

include targets lefts

theorem parallel_rearrange :
    Parallel c.work (fun _ _ => True) (rearrange target left)
      (rearrange (target.over t) (left.over l)) := by
  refine parallel_eachIndex (fun index => ?_) _
  exact parallel_change fun _ _ alike => alike.copyBytes targets lefts _ _ _

/-- Packing moves bytes, of a weight that is the operand `left`. -/
theorem parallel_repack :
    Parallel c.work (fun _ _ => True) (repack target left) (repack (target.over t) (left.over l)) := by
  refine (parallel_require _).bind fun _ _ _ => ?_
  refine (parallel_require _).bind fun _ _ _ => ?_
  refine (parallel_require _).bind fun _ _ _ => ?_
  refine parallel_eachCell fun row column => parallel_change fun mem same alike => ?_
  have byte : same.byte l (left.address [row, column]) =
      mem.byte left.storage (left.address [row, column]) := by
    rw [Memory.byte, Memory.byte, alike.contents _ _ lefts]
  exact byte ▸ alike.setByte targets _ _

include rights

theorem parallel_add :
    Parallel c.work (fun _ _ => True) (add target left right)
      (add (target.over t) (left.over l) (right.over r)) := by
  refine (parallel_require _).bind fun _ _ _ => parallel_eachIndex (fun index => ?_) _
  refine (parallel_number lefts index).bind_same fun a => ?_
  refine (parallel_number rights index).bind_same fun b => ?_
  exact parallel_setNumber targets index _

/-- Static quantization, of activations `left` by a scale `right`. -/
theorem parallel_staticQuantize :
    Parallel c.work (fun _ _ => True) (staticQuantize target left right)
      (staticQuantize (target.over t) (left.over l) (right.over r)) := by
  refine (parallel_require _).bind fun _ _ _ => ?_
  refine (parallel_require _).bind fun _ _ _ => ?_
  refine (parallel_scaleNumber rights 0).bind_same fun factor => ?_
  refine (parallel_require _).bind fun _ _ _ => parallel_eachIndex (fun index => ?_) _
  refine (parallel_number lefts index).bind_same fun value => ?_
  exact parallel_setNumber targets index _

end Elementwise

section Groups

variable {target scales x : View} {t s u : Nat} (targets : c.Pairs target.storage t)
  (scaled : c.Pairs scales.storage s) (sources : c.Pairs x.storage u)

include targets scaled sources

private theorem parallel_quantizeGroup (size : UInt64) (row group : Nat) :
    Parallel c.work (fun _ _ => True) (quantizeGroup target scales x size row group)
      (quantizeGroup (target.over t) (scales.over s) (x.over u) size row group) := by
  refine (parallel_rowPeak sources row _ _).bind_same fun peak => ?_
  refine (parallel_setNumber scaled [row, group] _).bind fun _ _ _ => ?_
  refine parallel_forM (fun column => ?_) _
  refine (parallel_number sources [row, column]).bind_same fun value => ?_
  exact parallel_setNumber targets [row, column] _

theorem parallel_groupQuantize (size : UInt64) :
    Parallel c.work (fun _ _ => True) (groupQuantize target scales x size)
      (groupQuantize (target.over t) (scales.over s) (x.over u) size) := by
  refine (parallel_require _).bind fun _ _ _ => ?_
  refine (parallel_require _).bind fun _ _ _ => ?_
  exact parallel_eachCell fun row group => parallel_quantizeGroup targets scaled sources size row group

end Groups

section Products

variable {target left leftScale right rightScale : View} {t l ls r rs : Nat}
  (targets : c.Pairs target.storage t) (lefts : c.Pairs left.storage l)
  (leftScales : c.Pairs leftScale.storage ls) (rights : c.Pairs right.storage r)
  (rightScales : c.Pairs rightScale.storage rs)

private theorem accord_requireLayouts (kernel : QuantLinear.Kernel) (left right : View) (l r : Nat) :
    Accord Fault.Alike (fun _ _ => True) (Kernel.requireLayouts kernel left right)
      (Kernel.requireLayouts kernel (left.over l) (right.over r)) := by
  refine (Accord.require (.refl _)).bind fun _ _ _ => ?_
  refine (Accord.require ⟨rfl, rfl⟩).bind fun _ _ _ => ?_
  exact Accord.require ⟨rfl, rfl⟩

include targets lefts leftScales rights rightScales

theorem parallel_scaledProduct :
    Parallel c.work (fun _ _ => True) (scaledProduct target left leftScale right rightScale)
      (scaledProduct (target.over t) (left.over l) (leftScale.over ls) (right.over r)
        (rightScale.over rs)) := by
  refine (parallel_lift (accord_requireLayouts _ left right l r)).bind fun _ _ _ => ?_
  refine (parallel_same (Kernel.requireExtents .scaledProduct target left right)).bind fun _ _ _ => ?_
  refine (parallel_require _).bind fun _ _ _ => ?_
  refine (parallel_require _).bind fun _ _ _ => ?_
  refine parallel_get.bind fun mem same alike => ?_
  rw [show same.numbers (left.over l) .f8 = mem.numbers left .f8 from Memories.numbers alike lefts _]
  refine parallel_get.bind fun mem same alike => ?_
  rw [show same.numbers (right.over r) .f8 = mem.numbers right .f8 from
    Memories.numbers alike rights _]
  refine parallel_forM (fun row => ?_) _
  refine (parallel_scaleNumber leftScales row).bind_same fun rowScale => ?_
  refine parallel_forM (fun column => ?_) _
  refine (parallel_scaleNumber rightScales column).bind_same fun columnScale => ?_
  exact parallel_setNumber targets [row, column] _

theorem parallel_blockScaledProduct (blockRows blockColumns : UInt64) :
    Parallel c.work (fun _ _ => True)
      (blockScaledProduct target left leftScale right rightScale blockRows blockColumns)
      (blockScaledProduct (target.over t) (left.over l) (leftScale.over ls) (right.over r)
        (rightScale.over rs) blockRows blockColumns) := by
  refine (parallel_lift (accord_requireLayouts _ left right l r)).bind fun _ _ _ => ?_
  refine (parallel_same (Kernel.requireExtents .blockScaledProduct target left right)).bind
    fun _ _ _ => ?_
  refine (parallel_require _).bind fun _ _ _ => ?_
  refine (parallel_require _).bind fun _ _ _ => ?_
  -- all four operands are read before the target is written
  refine parallel_get.bind fun mem same alike => ?_
  rw [show same.numbers (left.over l) .f8 = mem.numbers left .f8 from Memories.numbers alike lefts _]
  refine parallel_get.bind fun mem same alike => ?_
  rw [show same.numbers (right.over r) .f8 = mem.numbers right .f8 from
    Memories.numbers alike rights _]
  refine parallel_get.bind fun mem same alike => ?_
  rw [show same.decodeMatrix (leftScale.over ls) = mem.decodeMatrix leftScale from
    Memories.decodeMatrix alike leftScales]
  refine (parallel_same _).bind_same fun aScale => ?_
  refine parallel_get.bind fun mem same alike => ?_
  rw [show same.decodeMatrix (rightScale.over rs) = mem.decodeMatrix rightScale from
    Memories.decodeMatrix alike rightScales]
  refine (parallel_same _).bind_same fun bScale => ?_
  exact parallel_eachCell fun row column => parallel_setNumber targets [row, column] _

end Products

section Packed

variable {target left packed scale : View} {t l p s : Nat} (targets : c.Pairs target.storage t)
  (lefts : c.Pairs left.storage l) (packs : c.Pairs packed.storage p)
  (scales : c.Pairs scale.storage s) (outFeatures inFeatures : UInt64)

include packs scales

private theorem parallel_packedNumbers :
    Parallel c.work Eq (packedNumbers packed scale outFeatures inFeatures)
      (packedNumbers (packed.over p) (scale.over s) outFeatures inFeatures) := by
  refine parallel_ite (fun _ => parallel_pure rfl) fun _ => ?_
  refine (parallel_same scale.kind.decodable).bind_same fun scaleKind => ?_
  refine parallel_get.bind fun mem same alike => parallel_pure ?_
  simp only [Memories.packedNumber alike packs, Memories.scaleNumber alike scales]

include targets lefts

theorem parallel_packedProduct :
    Parallel c.work (fun _ _ => True)
      (packedProduct target left packed scale outFeatures inFeatures)
      (packedProduct (target.over t) (left.over l) (packed.over p) (scale.over s) outFeatures
        inFeatures) := by
  refine (parallel_require _).bind fun _ _ _ => ?_
  refine (parallel_same left.kind.decodable).bind_same fun leftKind => ?_
  refine (parallel_require _).bind fun _ _ _ => ?_
  refine (parallel_require _).bind fun _ _ _ => ?_
  refine (parallel_require _).bind fun _ _ _ => ?_
  refine (parallel_require _).bind fun _ _ _ => ?_
  refine (parallel_packedNumbers packs scales outFeatures inFeatures).bind_same fun weight => ?_
  refine parallel_get.bind fun mem same alike => ?_
  rw [show same.numbers (left.over l) leftKind = mem.numbers left leftKind from
    Memories.numbers alike lefts _]
  exact parallel_eachCell fun row column => parallel_setNumber targets [row, column] _

end Packed

end Work

end QuantLinear
