import QuantLinear.Proofs.Action

/-!
Two runs side by side.

Two computations run in parallel where, from states that are related, both answer with related
answers or both fail with related faults, and leave related states behind (`Parallel`). What is
related is a matter of the bond between the runs. The laws here take two computations apart step by
step, so that the steps of one are compared with those of the other.
-/

namespace QuantLinear

variable {σ τ α β γ δ ι : Type}

/-- How two runs end: both answer, and `returns` holds of their answers and states, or both fail, and
`fails` holds of their faults and states. -/
def Together (returns : α → σ → β → τ → Prop) (fails : Fault → σ → Fault → τ → Prop) :
    EStateM.Result Fault σ α → EStateM.Result Fault τ β → Prop
  | .ok answer after, .ok same later => returns answer after same later
  | .error fault after, .error other later => fails fault after other later
  | _, _ => False

namespace Together

variable {returns weaker : α → σ → β → τ → Prop} {fails milder : Fault → σ → Fault → τ → Prop}

theorem mono {left : EStateM.Result Fault σ α} {right : EStateM.Result Fault τ β}
    (ended : Together returns fails left right)
    (answers : ∀ answer after same later, returns answer after same later →
      weaker answer after same later)
    (failures : ∀ fault after other later, fails fault after other later →
      milder fault after other later) : Together weaker milder left right := by
  cases left <;> cases right
  · exact answers _ _ _ _ ended
  · exact ended
  · exact ended
  · exact failures _ _ _ _ ended

theorem bind {left : EStateM Fault σ α} {right : EStateM Fault τ β} {next : α → EStateM Fault σ γ}
    {other : β → EStateM Fault τ δ} {results : γ → σ → δ → τ → Prop} {before : σ} {start : τ}
    (first : Together returns fails (left before) (right start))
    (second : ∀ answer after same later, returns answer after same later →
      Together results fails (next answer after) (other same later)) :
    Together results fails ((left >>= next) before) ((right >>= other) start) := by
  simp only [Bind.bind, EStateM.bind]
  cases ran : left before <;> cases again : right start <;> rw [ran, again] at first
  · exact second _ _ _ _ first
  · exact False.elim first
  · exact False.elim first
  · exact first

/-- Where the first of two runs answers the other one does. -/
theorem answer {left : EStateM.Result Fault σ α} {right : EStateM.Result Fault τ β}
    (ended : Together returns fails left right) {answer : α} {after : σ}
    (returned : left = .ok answer after) :
    ∃ same later, right = .ok same later ∧ returns answer after same later := by
  subst returned
  cases right with
  | ok same later => exact ⟨same, later, rfl, ended⟩
  | error fault later => exact ended.elim

/-- Where the second of two runs answers the first one does. -/
theorem answered {left : EStateM.Result Fault σ α} {right : EStateM.Result Fault τ β}
    (ended : Together returns fails left right) {same : β} {later : τ}
    (returned : right = .ok same later) :
    ∃ answer after, left = .ok answer after ∧ returns answer after same later := by
  subst returned
  cases left with
  | ok answer after => exact ⟨answer, after, rfl, ended⟩
  | error fault after => exact ended.elim

end Together

/-- Computations without a state that both succeed, with related answers, or both fail, with related
faults. -/
def Accord (faults : Fault → Fault → Prop) (answers : α → β → Prop) :
    Except Fault α → Except Fault β → Prop
  | .ok answer, .ok same => answers answer same
  | .error fault, .error other => faults fault other
  | _, _ => False

namespace Accord

variable {faults : Fault → Fault → Prop} {answers : α → β → Prop}

theorem same (reflexive : ∀ fault, faults fault fault) (computation : Except Fault α) :
    Accord faults Eq computation computation := by
  cases computation with
  | ok answer => exact rfl
  | error fault => exact reflexive fault

theorem require {condition : Bool} {fault other : Fault} (alike : faults fault other) :
    Accord faults (fun _ _ => True) (require condition fault)
      (QuantLinear.require condition other) := by
  cases condition with
  | true => exact trivial
  | false => exact alike

theorem bind {left : Except Fault α} {right : Except Fault β} {next : α → Except Fault γ}
    {other : β → Except Fault δ} {results : γ → δ → Prop} (first : Accord faults answers left right)
    (second : ∀ answer same, answers answer same → Accord faults results (next answer) (other same)) :
    Accord faults results (left >>= next) (right >>= other) := by
  cases left <;> cases right
  · exact first
  · exact False.elim first
  · exact False.elim first
  · exact second _ _ first

end Accord

/-- What two runs have in common: a relation on their states and one on their faults. -/
structure Bond (σ τ : Type) where
  states : σ → τ → Prop
  faults : Fault → Fault → Prop

/-- From related states two computations end together, in related states with related answers or
related faults. -/
def Parallel (bond : Bond σ τ) (answers : α → β → Prop) (left : EStateM Fault σ α)
    (right : EStateM Fault τ β) : Prop :=
  ∀ before start, bond.states before start →
    Together (fun answer after same later => answers answer same ∧ bond.states after later)
      (fun fault after other later => bond.faults fault other ∧ bond.states after later)
      (left before) (right start)

section Laws

variable {bond : Bond σ τ} {answers : α → β → Prop}

theorem parallel_pure {answer : α} {same : β} (related : answers answer same) :
    Parallel bond answers (pure answer) (pure same) := fun _ _ alike => ⟨related, alike⟩

theorem parallel_throw {fault other : Fault} (related : bond.faults fault other) :
    Parallel bond answers (throw fault) (throw other) := fun _ _ alike => ⟨related, alike⟩

theorem parallel_get : Parallel bond bond.states get get := fun _ _ alike => ⟨alike, alike⟩

theorem parallel_modify {change : σ → σ} {other : τ → τ}
    (keeps : ∀ before start, bond.states before start → bond.states (change before) (other start)) :
    Parallel bond (fun _ _ => True) (modify change) (modify other) :=
  fun before start alike => ⟨trivial, keeps before start alike⟩

theorem Parallel.bind {left : EStateM Fault σ α} {right : EStateM Fault τ β}
    {next : α → EStateM Fault σ γ} {other : β → EStateM Fault τ δ} {results : γ → δ → Prop}
    (first : Parallel bond answers left right)
    (second : ∀ answer same, answers answer same → Parallel bond results (next answer) (other same)) :
    Parallel bond results (left >>= next) (right >>= other) :=
  fun before start alike => (first before start alike).bind
    fun answer after same later both => second answer same both.1 after later both.2

theorem Parallel.bind_same {left : EStateM Fault σ α} {right : EStateM Fault τ α}
    {next : α → EStateM Fault σ γ} {other : α → EStateM Fault τ δ} {results : γ → δ → Prop}
    (first : Parallel bond Eq left right)
    (second : ∀ answer, Parallel bond results (next answer) (other answer)) :
    Parallel bond results (left >>= next) (right >>= other) :=
  first.bind fun answer _ same => same ▸ second answer

theorem Parallel.mono {weaker : α → β → Prop} {left : EStateM Fault σ α} {right : EStateM Fault τ β}
    (parallel : Parallel bond answers left right)
    (weaken : ∀ answer same, answers answer same → weaker answer same) :
    Parallel bond weaker left right :=
  fun before start alike => (parallel before start alike).mono
    (fun answer _ same _ both => ⟨weaken answer same both.1, both.2⟩) fun _ _ _ _ both => both

theorem parallel_ite {condition : Prop} [Decidable condition] {yes no : EStateM Fault σ α}
    {yes' no' : EStateM Fault τ β} (held : condition → Parallel bond answers yes yes')
    (failed : ¬condition → Parallel bond answers no no') :
    Parallel bond answers (if condition then yes else no) (if condition then yes' else no') := by
  split
  · exact held ‹_›
  · exact failed ‹_›

theorem parallel_forM {step : ι → EStateM Fault σ Unit} {other : ι → EStateM Fault τ Unit}
    (each : ∀ x, Parallel bond (fun _ _ => True) (step x) (other x)) (positions : List ι) :
    Parallel bond (fun _ _ => True) (positions.forM step) (positions.forM other) := by
  induction positions with
  | nil => exact parallel_pure trivial
  | cons x rest ih => exact (each x).bind fun _ _ _ => ih

theorem parallel_foldlM {step : α → ι → EStateM Fault σ α} {other : α → ι → EStateM Fault τ α}
    (each : ∀ state x, Parallel bond Eq (step state x) (other state x)) (positions : List ι)
    (start : α) :
    Parallel bond Eq (positions.foldlM step start) (positions.foldlM other start) := by
  induction positions generalizing start with
  | nil => exact parallel_pure rfl
  | cons x rest ih =>
    rw [List.foldlM_cons, List.foldlM_cons]
    exact (each start x).bind_same ih

end Laws

theorem bind_defined {α : Type} (tensor : Tensor) (next : Tensor → Action α) :
    (liftM (Handle.defined (some tensor)) >>= next) = next tensor := rfl

theorem Action.parallel_lift {bond : Bond Machine Machine} {answers : α → β → Prop}
    {left : Except Fault α} {right : Except Fault β} (accord : Accord bond.faults answers left right) :
    Parallel bond answers (liftM left : Action α) (liftM right : Action β) := by
  intro before start alike
  cases left <;> cases right
  · exact ⟨accord, alike⟩
  · exact accord
  · exact accord
  · exact ⟨accord, alike⟩

theorem Work.parallel_lift {bond : Bond Memory Memory} {answers : α → β → Prop}
    {left : Except Fault α} {right : Except Fault β} (accord : Accord bond.faults answers left right) :
    Parallel bond answers (liftM left : Work α) (liftM right : Work β) := by
  intro before start alike
  cases left <;> cases right
  · exact ⟨accord, alike⟩
  · exact accord
  · exact accord
  · exact ⟨accord, alike⟩

namespace Together

open QuantLinear.Action

variable {before start : Machine} {left : Action α} {right : Action β}
  {returns : α → Machine → β → Machine → Prop} {fails : Fault → Machine → Fault → Machine → Prop}
  {first : α → Machine → Prop} {second : β → Machine → Prop}

/-- What is known of each of two runs alone may be added to what is known of both. -/
theorem and_ends {stops : Fault → Machine → Prop} {halts : Fault → Machine → Prop}
    (both : Together returns fails (left before) (right start))
    (one : left.Ends before first stops) (other : right.Ends start second halts) :
    Together (fun answer after same later =>
      returns answer after same later ∧ first answer after ∧ second same later) fails (left before)
      (right start) := by
  unfold Ends at one other
  cases ran : left before <;> cases again : right start <;> rw [ran, again] at both <;>
    simp only [ran] at one <;> simp only [again] at other
  · exact ⟨both, one, other⟩
  · exact both
  · exact both
  · exact both

/-- Two runs that cannot fail end together. -/
theorem of_ends (one : left.Ends before first fun _ _ => False)
    (other : right.Ends start second fun _ _ => False) :
    Together (fun answer after same later => first answer after ∧ second same later) fails
      (left before) (right start) := by
  obtain ⟨answer, after, ran, holds⟩ := one.returned
  obtain ⟨same, later, again, held⟩ := other.returned
  rw [ran, again]
  exact ⟨holds, held⟩

end Together

end QuantLinear
