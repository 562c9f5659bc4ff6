import QuantLinear.Kernel.Operand

/-!
Kernels that treat each position of their operands on its own: copying and adding.
-/

namespace QuantLinear.Work

/-- Copies each element of `source` to the same position of `target`. -/
def rearrange (target source : View) : Work Unit :=
  source.shape.eachIndex fun index =>
    modify (·.copyBytes target.storage (target.address index) source.storage (source.address index)
      source.kind.size)

/-- Adds `left` and `right` position by position. -/
def add (target left right : View) : Work Unit := do
  require (target.kind.isFloating && left.kind.isFloating && right.kind.isFloating)
    (.kernelFailure Kernel.add.label .notFloating)
  target.shape.eachIndex fun index => do
    let a ← number left index
    let b ← number right index
    setNumber target index (a + b)

end QuantLinear.Work
