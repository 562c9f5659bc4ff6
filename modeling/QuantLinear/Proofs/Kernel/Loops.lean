import QuantLinear.Kernel.Product
import QuantLinear.Proofs.Words
import QuantLinear.Proofs.Numeric.Rounding

/-!
What the kernels have in common.

A kernel fills a matrix row by row, reads its operands at the same positions all along, and
adds up terms from the left. Each loop is treated here once.
-/

namespace QuantLinear

/-- Numbers are read in the floating kinds. -/
theorem ElementKind.decodable_eq_ok {kind : ElementKind} {float : FloatKind} :
    kind.decodable = .ok float ↔ kind = .float float := by
  cases kind <;> simp [decodable, pure, Except.pure, throw, throwThe, MonadExceptOf.throw]

/-- Numbers are written in the floating kinds. -/
theorem ElementKind.encodable_eq_ok {kind : ElementKind} {float : FloatKind} :
    kind.encodable = .ok float ↔ kind = .float float := by
  cases kind <;> simp [encodable, pure, Except.pure, throw, throwThe, MonadExceptOf.throw]

/-- A number is stored in the bytes of its kind. -/
theorem FloatKind.encode_lt (kind : FloatKind) (x : Binary32) :
    kind.encode x < 256 ^ kind.size := by
  cases kind with
  | f8 => exact Format.convert_lt .float8 _ (by decide) (Format.word_lt _ _ (by decide)) _
  | f16 => exact Format.convert_lt .binary16 _ (by decide) (Format.word_lt _ _ (by decide)) _
  | bf16 =>
    have bound := x.quiet.bits.toNat_lt
    refine Format.convert_lt .bfloat16 _ (by decide) ?_ _
    rw [Nat.shiftRight_eq_div_pow]
    exact Nat.div_lt_of_lt_mul (Nat.lt_of_lt_of_le bound (by decide))
  | f32 => exact x.bits.toNat_lt
  | f64 => exact x.toBinary64.bits.toNat_lt

/-- Single precision words are stored as they are. -/
theorem FloatKind.f32_decode_encode (x : Binary32) :
    FloatKind.f32.decode (FloatKind.f32.encode x) = x := by
  have same : UInt32.ofNat x.bits.toNat = x.bits := UInt32.ofNat_toNat
  simp only [FloatKind.decode, FloatKind.encode, Binary32.ofNat, Binary32.toNat, same]

/-- Two loops agree where their steps do on every state that the loop can come to. -/
theorem foldl_congr_of_invariant {σ ι : Type} {step other : σ → ι → σ} (P : σ → Prop)
    (positions : List ι) (each : ∀ i ∈ positions, ∀ state, P state →
      step state i = other state i ∧ P (step state i)) {start : σ} (initial : P start) :
    positions.foldl step start = positions.foldl other start := by
  induction positions generalizing start with
  | nil => rfl
  | cons i rest ih =>
    obtain ⟨same, kept⟩ := each i List.mem_cons_self start initial
    rw [List.foldl_cons, List.foldl_cons, ← same]
    exact ih (fun j member => each j (List.mem_cons_of_mem _ member)) kept

/-- A loop depends on its steps at the positions of its range alone. -/
theorem forRange_congr {σ : Type} {lo hi : Nat} {start : σ} {step other : σ → Nat → σ}
    (same : ∀ i, lo ≤ i → i < hi → ∀ state, step state i = other state i) :
    forRange lo hi start step = forRange lo hi start other := by
  rw [forRange, forRange]
  apply foldl_congr_of_invariant (fun _ => True) _ ?_ trivial
  intro i member state _
  have bounds := List.mem_range'_1.mp member
  exact ⟨same i bounds.1 (by omega) state, trivial⟩

/-- A sum depends on the terms of its range alone. -/
theorem accumulate_congr {α : Type} [Add α] {start : α} {lo hi : Nat} {term other : Nat → α}
    (same : ∀ i, lo ≤ i → i < hi → term i = other i) :
    accumulate start lo hi term = accumulate start lo hi other :=
  forRange_congr fun i above below total => by rw [same i above below]

/-- Two nested loops over the extents of a matrix meet its indices in row-major order. -/
theorem forRange_indices {σ : Type} (rows columns : UInt64) (step : σ → Index → σ) (start : σ) :
    forRange 0 rows.toNat start (fun state row =>
        forRange 0 columns.toNat state fun state column => step state [row, column]) =
      (Shape.indices [rows, columns]).foldl step start := by
  rw [Shape.indices_eq_positions]
  simp only [forRange, Nat.sub_zero, ← List.range_eq_range', Shape.positions, List.map_cons,
    List.map_nil, List.foldl_flatMap, List.foldl_map, List.foldl_cons, List.foldl_nil]

/-- Two nested loops over a matrix without positions do nothing. -/
theorem forRange_empty {σ : Type} {step : σ → Nat → σ → Nat → σ} {rows columns : UInt64}
    (empty : rows = 0 ∨ columns = 0) (start : σ) :
    (forRange 0 rows.toNat start fun first row => forRange 0 columns.toNat first (step first row)) =
      start := by
  rcases empty with rfl | rfl
  · rfl
  · exact forRange_idle fun _ => rfl

namespace Memory

/-- Steps of a loop that each change some storages change no others together. -/
theorem evolves_forRange {changed : List Nat} {lo hi : Nat} {step : Memory → Nat → Memory}
    (each : ∀ mem i, Evolves changed mem (step mem i)) (mem : Memory) :
    Evolves changed mem (forRange lo hi mem step) :=
  evolves_foldl each mem _

/-- The numbers of a matrix are read at its positions. -/
theorem entry_numbers (mem : Memory) (v : View) (kind : FloatKind) {row column : Nat}
    (inRows : row < (v.extent 0).toNat) (inColumns : column < (v.extent 1).toNat) :
    (mem.numbers v kind).entry row column = mem.number v kind [row, column] := by
  rw [numbers, Matrix.entry_tabulate, if_pos ⟨inRows, inColumns⟩]

/-- What a view without gaps shows at a place of its row-major order. -/
theorem wordAt_addressAt {mem : Memory} {v : View} (there : mem.Has v)
    (packed : v.isContiguous = true) {index : Index} (inside : v.shape.Within index) :
    mem.wordAt v (v.addressAt (v.shape.placeOf index)) = mem.load v index := by
  rw [load, View.address, v.addressAt_congr (Shape.offset_eq_place there.rank packed inside)]

/-- A loop over the rows of a matrix that writes the word of each position, row by row. A step
is told what the storages held when its row began. -/
theorem Filled.matrix {mem : Memory} {v : View} (separate : mem.Separate v) {rows columns : UInt64}
    (shape : v.shape = [rows, columns]) (word : Nat → Nat → Nat)
    (step : Memory → Nat → Memory → Nat → Memory)
    (fits : ∀ row column, word row column < 256 ^ v.kind.size)
    (each : ∀ first mid, Rewrites [v] mem first → Rewrites [v] mem mid →
      ∀ row < rows.toNat, ∀ column < columns.toNat,
        step first row mid column = mid.store v [row, column] (word row column)) :
    let after := forRange 0 rows.toNat mem fun first row =>
      forRange 0 columns.toNat first (step first row)
    Rewrites [v] mem after ∧
      ∀ row < rows.toNat, ∀ column < columns.toNat, after.load v [row, column] = word row column := by
  let wordAt (index : Index) : Nat := word (index.getD 0 0) (index.getD 1 0)
  have inside : ∀ row < rows.toNat, ∀ column < columns.toNat,
      v.shape.Within [row, column] := by
    intro row inRows column inColumns
    rw [shape]
    exact Shape.within_of_lt inRows inColumns
  -- the words at all positions before the one that the loops have come to are in place
  have filled := forRange_induction
    (fun (row : Nat) after => Rewrites [v] mem after ∧
      Filled mem v wordAt (Shape.Before row 0) after) (Nat.zero_le rows.toNat)
    mem (fun first row => forRange 0 columns.toNat first (step first row))
    ⟨.refl _ _, (Filled.start mem v wordAt).congr fun index _ => by simp [Shape.before_zero]⟩ ?_
  · intro after
    refine ⟨filled.1, fun row inRows column inColumns => ?_⟩
    exact filled.2.written _ (inside row inRows column inColumns) (.inl inRows)
  · intro row first _ inRows started
    have done := forRange_induction
      (fun (column : Nat) mid => Rewrites [v] mem mid ∧
        Filled mem v wordAt (Shape.Before row column) mid)
      (Nat.zero_le columns.toNat) first (step first row) started ?_
    · refine ⟨done.1, done.2.congr fun index within => ?_⟩
      rw [shape] at within
      exact Shape.before_row within
    · intro column mid _ inColumns grown
      have within := inside row inRows column inColumns
      rw [each first mid started.1 grown.1 row inRows column inColumns]
      refine ⟨grown.1.trans (rewrites_store _ within _),
        (grown.2.store (separate.later grown.1.evolves) within (fits row column)).congr
          fun index there => ?_⟩
      rw [shape] at there
      exact Shape.before_succ there

end Memory

end QuantLinear
