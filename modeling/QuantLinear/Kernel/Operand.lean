import QuantLinear.Element.Number
import QuantLinear.Shape.Counters
import QuantLinear.Work

/-!
Operands of kernels read as single precision numbers, and loops over their positions.

Numbers are loaded and stored in floating kinds alone. `Memory` has the words and numbers of a
known kind; `Work` asks each time for the kind, and fails on one that holds no numbers.
-/

namespace QuantLinear

/-- A matrix as the array of its rows. Its entries are found by row and column; there is no buffer of
rows times columns entries, a product that could wrap, and no request for one. -/
structure Matrix (α : Type) where
  rows : Array (Array α)
deriving Repr

namespace Matrix

/-- The matrix with the given entries; without columns it takes no rows. -/
def tabulate {α : Type} (rows columns : Nat) (entry : Nat → Nat → α) : Matrix α :=
  if columns = 0 then ⟨#[]⟩
  else ⟨((List.range rows).map fun row => ((List.range columns).map (entry row)).toArray).toArray⟩

/-- An entry; zero outside the matrix. -/
def entry {α : Type} [Zero α] (matrix : Matrix α) (row column : Nat) : α :=
  (matrix.rows.getD row #[]).getD column 0

theorem entry_tabulate {α : Type} [Zero α] (rows columns : Nat) (f : Nat → Nat → α)
    (row column : Nat) :
    (tabulate rows columns f).entry row column =
      if row < rows ∧ column < columns then f row column else 0 := by
  by_cases empty : columns = 0
  · simp [tabulate, entry, empty]
  · by_cases inRows : row < rows <;> by_cases inColumns : column < columns <;>
      simp [tabulate, entry, empty, inRows, inColumns]

end Matrix

/-- Runs `step` for `lo`, `lo + 1`, … below `hi`. -/
def forRange {σ : Type} (lo hi : Nat) (start : σ) (step : σ → Nat → σ) : σ :=
  (List.range' lo (hi - lo)).foldl step start

namespace Memory

def number (mem : Memory) (v : View) (kind : FloatKind) (index : Index) : Binary32 :=
  kind.decode (mem.load v index)

/-- Writes a number at a position of a view of floating kind. -/
def setNumber (mem : Memory) (v : View) (kind : FloatKind) (index : Index) (x : Binary32) :
    Memory :=
  mem.store v index (kind.encode x)

/-- The number that scales position `i`: a single value serves every position. -/
def scaleNumber (mem : Memory) (scale : View) (kind : FloatKind) (i : Nat) : Binary32 :=
  let place := if scale.numel == 1 then 0 else i
  kind.decode (mem.wordAt scale (scale.addressAt place))

/-- The numbers of a matrix, decoded once, for all extents: as for every `Matrix`, how many entries there
are is not counted in a word. -/
def numbers (mem : Memory) (v : View) (kind : FloatKind) : Matrix Binary32 :=
  .tabulate (v.extent 0).toNat (v.extent 1).toNat fun row column =>
    mem.number v kind [row, column]

/-- The numbers of a matrix whose kind is asked for only where it has elements. -/
def decodeMatrix (mem : Memory) (v : View) : Except Fault (Matrix Binary32) :=
  if v.extent 0 = 0 ∨ v.extent 1 = 0 then pure (.tabulate 0 0 fun _ _ => 0)
  else do
    let kind ← v.kind.decodable
    pure (mem.numbers v kind)

end Memory

namespace Work

/-- Loads the number at a position of a view, whose kind is asked for with each number. -/
def number (v : View) (index : Index) : Work Binary32 := do
  let kind ← v.kind.decodable
  return (← get).number v kind index

/-- Loads the number that scales position `i`. -/
def scaleNumber (scale : View) (i : Nat) : Work Binary32 := do
  let kind ← scale.kind.decodable
  return (← get).scaleNumber scale kind i

/-- Stores a number at a position of a view. -/
def setNumber (v : View) (index : Index) (x : Binary32) : Work Unit := do
  let kind ← v.kind.encodable
  modify (·.setNumber v kind index x)

end Work

end QuantLinear
