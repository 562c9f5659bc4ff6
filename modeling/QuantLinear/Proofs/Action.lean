import QuantLinear.Machine

/-!
What holds where an action ends.

An action either answers or fails, and leaves a machine in both cases. `Ends` speaks of both ends at
once; the laws here open an action step by step, so that a statement about an action follows the
text of the action.
-/

namespace QuantLinear

section Except

variable {α β : Type}

theorem bind_eq_ok {computation : Except Fault α} {next : α → Except Fault β} {answer : β} :
    computation >>= next = .ok answer ↔
      ∃ value, computation = .ok value ∧ next value = .ok answer := by
  cases computation <;> simp [bind, Except.bind]

theorem pure_eq_ok {value answer : α} :
    (pure value : Except Fault α) = .ok answer ↔ value = answer := by
  simp [pure, Except.pure]

theorem require_eq_ok {condition : Bool} {fault : Fault} {answer : Unit} :
    require condition fault = .ok answer ↔ condition = true := by
  cases condition <;> simp [require, pure, Except.pure, throw, throwThe, MonadExceptOf.throw]

end Except

namespace Action

/-- Where an action ends: `returns` holds of its answer and the machine if it answers, and `fails`
of its fault and the machine if it fails. -/
def Ends {α : Type} (action : Action α) (before : Machine) (returns : α → Machine → Prop)
    (fails : Fault → Machine → Prop) : Prop :=
  match action before with
  | .ok answer after => returns answer after
  | .error fault after => fails fault after

section Laws

variable {α β : Type} {before : Machine} {returns : α → Machine → Prop}
  {fails : Fault → Machine → Prop}

@[simp] theorem ends_pure (value : α) :
    Ends (pure value) before returns fails ↔ returns value before := Iff.rfl

@[simp] theorem ends_throw (fault : Fault) :
    Ends (throw fault) before returns fails ↔ fails fault before := Iff.rfl

@[simp] theorem ends_bind (action : Action α) (next : α → Action β)
    {returns : β → Machine → Prop} :
    Ends (action >>= next) before returns fails ↔
      Ends action before (fun answer after => Ends (next answer) after returns fails) fails := by
  simp only [Ends, bind, EStateM.bind]
  cases action before <;> rfl

@[simp] theorem ends_map (f : α → β) (action : Action α) {returns : β → Machine → Prop} :
    Ends (f <$> action) before returns fails ↔
      Ends action before (fun answer after => returns (f answer) after) fails := by
  simp only [Ends, Functor.map, EStateM.map]
  cases action before <;> rfl

@[simp] theorem ends_get {returns : Machine → Machine → Prop} :
    Ends get before returns fails ↔ returns before before := Iff.rfl

@[simp] theorem ends_set (machine : Machine) {returns : PUnit → Machine → Prop} :
    Ends (set machine) before returns fails ↔ returns ⟨⟩ machine := Iff.rfl

@[simp] theorem ends_modify (change : Machine → Machine) {returns : PUnit → Machine → Prop} :
    Ends (modify change) before returns fails ↔ returns ⟨⟩ (change before) := Iff.rfl

@[simp] theorem ends_ite (condition : Prop) [Decidable condition] (yes no : Action α) :
    Ends (if condition then yes else no) before returns fails ↔
      (condition → Ends yes before returns fails) ∧ (¬condition → Ends no before returns fails) := by
  split <;> simp [*]

/-- A computation that needs no machine leaves it as it is. -/
theorem ends_lift (computation : Except Fault α) :
    Ends (liftM computation) before returns fails ↔
      (∀ value, computation = .ok value → returns value before) ∧
        (∀ fault, computation = .error fault → fails fault before) := by
  cases computation with
  | ok value =>
    constructor
    · intro ended
      refine ⟨fun _ same => Except.ok.inj same ▸ ended, ?_⟩
      intro _ other
      cases other
    · exact fun both => both.1 value rfl
  | error fault =>
    constructor
    · intro ended
      refine ⟨?_, fun _ same => Except.error.inj same ▸ ended⟩
      intro _ other
      cases other
    · exact fun both => both.2 fault rfl

@[simp] theorem ends_ok (value : α) :
    Ends (liftM (Except.ok value : Except Fault α)) before returns fails ↔ returns value before :=
  Iff.rfl

@[simp] theorem ends_require (condition : Bool) (fault : Fault) {returns : Unit → Machine → Prop} :
    Ends (liftM (require condition fault)) before returns fails ↔
      (condition = true → returns () before) ∧ (condition = false → fails fault before) := by
  cases condition with
  | false =>
    constructor
    · exact fun ended => ⟨Bool.noConfusion, fun _ => ended⟩
    · exact fun both => both.2 rfl
  | true =>
    constructor
    · exact fun ended => ⟨fun _ => ended, Bool.noConfusion⟩
    · exact fun both => both.1 rfl

@[simp] theorem ends_defined (tensor : Tensor) {returns : Tensor → Machine → Prop} :
    Ends (liftM (Handle.defined (some tensor))) before returns fails ↔ returns tensor before :=
  Iff.rfl

end Laws

section Consequences

variable {α : Type} {action : Action α} {before : Machine} {returns weaker : α → Machine → Prop}
  {fails milder : Fault → Machine → Prop}

theorem Ends.mono (ended : Ends action before returns fails)
    (answers : ∀ answer after, returns answer after → weaker answer after)
    (failures : ∀ fault after, fails fault after → milder fault after) :
    Ends action before weaker milder := by
  unfold Ends at ended ⊢
  split at ended
  · exact answers _ _ ended
  · exact failures _ _ ended

/-- An action ends. -/
theorem ends_somewhere (action : Action α) (before : Machine) :
    Ends action before (fun _ _ => True) fun _ _ => True := by
  unfold Ends
  split <;> trivial

/-- Two statements about one action hold together. -/
theorem Ends.and {others : α → Machine → Prop} {otherwise : Fault → Machine → Prop}
    (first : Ends action before returns fails) (second : Ends action before others otherwise) :
    Ends action before (fun answer after => returns answer after ∧ others answer after)
      fun fault after => fails fault after ∧ otherwise fault after := by
  unfold Ends at first second ⊢
  split at first
  · next found =>
    rw [found] at second
    exact ⟨first, second⟩
  · next found =>
    rw [found] at second
    exact ⟨first, second⟩

/-- Once an action has answered, the next one goes on from there. -/
theorem bind_answered {β : Type} {answer : α} {after : Machine}
    (returned : action before = .ok answer after) (next : α → Action β) :
    (action >>= next) before = next answer after := by
  simp only [bind, EStateM.bind, returned]

theorem bind_failed {β : Type} {fault : Fault} {after : Machine}
    (failed : action before = .error fault after) (next : α → Action β) :
    (action >>= next) before = .error fault after := by
  simp only [bind, EStateM.bind, failed]

theorem lift_answered {computation : Except Fault α} {value : α}
    (passed : computation = .ok value) (machine : Machine) :
    (liftM computation : Action α) machine = .ok value machine := by
  rw [passed]
  rfl

/-- What holds where an action answers, of an action that does. -/
theorem Ends.answer (ended : Ends action before returns fails) {answer : α} {after : Machine}
    (returned : action before = .ok answer after) : returns answer after := by
  simpa only [Ends, returned] using ended

/-- What holds where an action fails, of an action that does. -/
theorem Ends.failure (ended : Ends action before returns fails) {fault : Fault} {after : Machine}
    (failed : action before = .error fault after) : fails fault after := by
  simpa only [Ends, failed] using ended

/-- An action that cannot fail answers. -/
theorem Ends.returned (ended : Ends action before returns fun _ _ => False) :
    ∃ answer after, action before = .ok answer after ∧ returns answer after := by
  unfold Ends at ended
  split at ended
  · next answer after returned => exact ⟨answer, after, returned, ended⟩
  · exact ended.elim

/-- An action whose failures are ruled out answers. -/
theorem Ends.returned_of (ended : Ends action before returns fails)
    (never : ∀ fault after, ¬fails fault after) :
    ∃ answer after, action before = .ok answer after ∧ returns answer after :=
  (ended.mono (fun _ _ done => done) never).returned

end Consequences

end Action

end QuantLinear
