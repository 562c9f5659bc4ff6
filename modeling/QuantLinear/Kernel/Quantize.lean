import QuantLinear.Kernel.Operand

/-!
Kernels that quantize activations to eight bits.

Static quantization divides by one given scale. Group quantization cuts each row into groups of
neighbouring columns and measures a scale for each, so that the largest magnitude of a group lands
on the largest magnitude of the format.
-/

namespace QuantLinear

/-- The largest magnitude of the eight bit format, as a single precision number. -/
def float8Limit : Binary32 := ⟨0x43E00000⟩

/-- The number that stands in for the largest magnitude of a group when all are below it. -/
def smallestPeak : Binary32 := ⟨0x2EDBE6FF⟩

namespace Kernel

/-- The scale of a group whose largest magnitude is `peak`. -/
def groupScale (peak : Binary32) : Binary32 := peak.max smallestPeak / float8Limit

end Kernel

namespace Work

/-- Multiplies each number of `x` by the reciprocal of the single number of `scale`. -/
def staticQuantize (target x scale : View) : Work Unit := do
  let fail := Fault.kernelFailure Kernel.staticQuantize.label
  require (target.kind == .float .f8) (fail .outputNotF8)
  require (scale.numel == 1) (fail .scaleNotSingle)
  let factor ← scaleNumber scale 0
  require ((0 : Binary32).lt factor && factor.isFinite) (fail .scaleNotPositive)
  let reciprocal := Binary32.one / factor
  x.shape.eachIndex fun index => do
    let value ← number x index
    setNumber target index (value * reciprocal)

/-- The largest magnitude among the columns of a row, passing over NaNs. -/
def rowPeak (x : View) (row lo hi : Nat) : Work Binary32 :=
  (List.range' lo (hi - lo)).foldlM
    (fun peak column => do
      let value ← number x [row, column]
      return peak.max value.abs)
    0

/-- Measures one group, writes its scale and divides its numbers by it. -/
def quantizeGroup (target scales x : View) (size : UInt64) (row group : Nat) : Work Unit := do
  let (lo, hi) := chunkRange (x.extent 1) size (UInt64.ofNat group)
  let peak ← rowPeak x row lo hi
  let scale := Kernel.groupScale peak
  setNumber scales [row, group] scale
  each lo hi fun column => do
    let value ← number x [row, column]
    setNumber target [row, column] (value / scale)

/-- Quantizes each row of `x` in groups of `size` columns. -/
def groupQuantize (target scales x : View) (size : UInt64) : Work Unit := do
  let fail := Fault.kernelFailure Kernel.groupQuantize.label
  require (target.kind == .float .f8) (fail .outputNotF8)
  let rows := x.extent 0
  let groups := ceilDiv (x.extent 1) size
  require (scales.rank == 2 && scales.extent 0 == rows && scales.extent 1 == groups)
    (fail (.groupScaleShape scales.shape rows groups))
  eachCell rows.toNat groups.toNat (quantizeGroup target scales x size)

end Work

end QuantLinear
