import QuantLinear.Kernel.Operand
import QuantLinear.Proofs.Enumeration

/-!
What work on memory comes to.

Work is free to store and then fail. Where it does not, because its first step asks for all that the
later ones ask for, it comes to an outcome that is known beforehand, and a failure leaves the memory
as it was (`Work.Settles`). The laws here follow the text of the work.
-/

namespace QuantLinear

namespace Work

section Steps

variable {α β : Type} {work : Work α} {next : α → Work β} {mem after : Memory}

theorem bind_ok {value : α} (done : work mem = .ok value after) :
    (work >>= next) mem = next value after := by
  simp only [bind, EStateM.bind, done]

theorem bind_error {fault : Fault} (failed : work mem = .error fault after) :
    (work >>= next) mem = .error fault after := by
  simp only [bind, EStateM.bind, failed]

end Steps

/-- Work that comes to an outcome known beforehand: it leaves the memory that the outcome names, or
it fails with the outcome's fault and leaves the memory as it was. -/
def Settles (work : Work Unit) (mem : Memory) : Except Fault Memory → Prop
  | .ok after => work mem = .ok () after
  | .error fault => work mem = .error fault mem

section Laws

variable {α : Type} {mem : Memory} {fault : Fault}

/-- A check comes before the rest on both sides. -/
theorem settles_check {check : Except Fault α} {next : α → Work Unit}
    {outcome : α → Except Fault Memory}
    (passed : ∀ value, check = .ok value → (next value).Settles mem (outcome value)) :
    Settles (liftM check >>= next) mem (check >>= outcome) := by
  cases check with
  | ok value => exact passed value rfl
  | error fault => rfl

/-- What is only read comes before the rest. -/
theorem settles_read {work : Work α} {value : α} {next : α → Work Unit}
    {outcome : Except Fault Memory} (done : work mem = .ok value mem)
    (rest : (next value).Settles mem outcome) : Settles (work >>= next) mem outcome := by
  cases outcome with
  | ok after => exact (bind_ok done).trans rest
  | error fault => exact (bind_ok done).trans rest

theorem settles_get {next : Memory → Work Unit} {outcome : Except Fault Memory}
    (rest : (next mem).Settles mem outcome) : Settles (get >>= next) mem outcome :=
  settles_read rfl rest

private theorem forM_ok {ι : Type} {step : ι → Work Unit} {change : Memory → ι → Memory}
    (stores : ∀ x mem, step x mem = .ok () (change mem x)) (positions : List ι) (mem : Memory) :
    positions.forM step mem = .ok () (positions.foldl change mem) := by
  induction positions generalizing mem with
  | nil => rfl
  | cons x rest ih => exact (bind_ok (stores x mem)).trans (ih _)

theorem eachIndex_ok {step : Index → Work Unit} {change : Memory → Index → Memory}
    (stores : ∀ index mem, step index mem = .ok () (change mem index)) (shape : Shape)
    (mem : Memory) : shape.eachIndex step mem = .ok () (shape.indices.foldl change mem) := by
  rw [Shape.eachIndex_eq_forM]
  exact forM_ok stores _ mem

theorem eachIndex_idle {step : Index → Work Unit} {shape : Shape} (empty : shape.contains 0) :
    shape.eachIndex step mem = .ok () mem := by
  rw [Shape.eachIndex, if_pos empty]
  rfl

/-- A loop whose first step fails without a store fails without one. -/
theorem eachIndex_error {step : Index → Work Unit} {shape : Shape} (full : ¬shape.contains 0)
    (fails : ∀ index, step index mem = .error fault mem) :
    shape.eachIndex step mem = .error fault mem := by
  obtain ⟨index, rest, first⟩ := List.exists_cons_of_ne_nil (Shape.indices_ne_nil full)
  rw [Shape.eachIndex_eq_forM, first]
  exact bind_error (fails index)

theorem each_ok {step : Nat → Work Unit} {change : Memory → Nat → Memory}
    (stores : ∀ i mem, step i mem = .ok () (change mem i)) (lo hi : Nat) (mem : Memory) :
    each lo hi step mem = .ok () (forRange lo hi mem change) := forM_ok stores _ mem

theorem each_error {lo hi : Nat} {step : Nat → Work Unit} (some : lo < hi)
    (fails : step lo mem = .error fault mem) : each lo hi step mem = .error fault mem := by
  obtain ⟨count, more⟩ : ∃ count, hi - lo = count + 1 := ⟨hi - lo - 1, by omega⟩
  rw [each, more, List.range'_succ]
  exact bind_error fails

theorem eachCell_ok {step : Nat → Nat → Work Unit} {change : Nat → Memory → Nat → Memory}
    {columns : Nat} (someColumns : 0 < columns)
    (stores : ∀ row column mem, step row column mem = .ok () (change row mem column))
    (rows : Nat) (mem : Memory) :
    eachCell rows columns step mem =
      .ok () (forRange 0 rows mem fun mem row => forRange 0 columns mem (change row)) := by
  rw [eachCell, if_neg (Nat.ne_of_gt someColumns)]
  exact each_ok (fun row mem => each_ok (stores row) 0 columns mem) 0 rows mem

theorem eachCell_idle {rows columns : Nat} {step : Nat → Nat → Work Unit}
    (empty : rows = 0 ∨ columns = 0) : eachCell rows columns step mem = .ok () mem := by
  rw [eachCell]
  split
  · rfl
  · next some => rw [empty.resolve_right some]; rfl

theorem eachCell_error {rows columns : Nat} {step : Nat → Nat → Work Unit} (someRows : 0 < rows)
    (someColumns : 0 < columns) (fails : step 0 0 mem = .error fault mem) :
    eachCell rows columns step mem = .error fault mem := by
  rw [eachCell, if_neg (Nat.ne_of_gt someColumns)]
  exact each_error someRows (each_error someColumns fails)

end Laws

end Work

end QuantLinear
