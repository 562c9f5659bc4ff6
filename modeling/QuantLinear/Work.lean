import QuantLinear.Fault
import QuantLinear.Memory

/-!
Work on memory: loads and stores that are made one after another.

Work that fails keeps what it stored before it failed.
-/

namespace QuantLinear

abbrev Work := EStateM Fault Memory

namespace Work

/-- A computation that needs no memory. -/
def ofExcept {α : Type} : Except Fault α → Work α
  | .ok value => pure value
  | .error fault => throw fault

instance : MonadLift (Except Fault) Work := ⟨ofExcept⟩

/-- Runs `step` for `lo`, `lo + 1`, … below `hi`. -/
def each (lo hi : Nat) (step : Nat → Work Unit) : Work Unit :=
  (List.range' lo (hi - lo)).forM step

/-- Runs `step` for each position of a matrix, row by row; without columns it looks at no row. -/
def eachCell (rows columns : Nat) (step : Nat → Nat → Work Unit) : Work Unit :=
  if columns = 0 then pure () else each 0 rows fun row => each 0 columns (step row)

end Work

end QuantLinear
