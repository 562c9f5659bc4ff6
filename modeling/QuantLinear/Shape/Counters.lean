import QuantLinear.Shape

/-!
A loop over the index space that keeps one 64-bit counter for each axis.

The counter of the last axis goes up with every position. One that reaches its extent starts again,
and the one of the axis outside it goes up. The loop is over when all have started again; it comes to
that from any counters, because `headroom` shrinks with every other move (`headroom_advance`).
-/

namespace QuantLinear

/-- A 64-bit word for each axis. -/
abbrev Counters := List UInt64

/-- The position that counters stand at. -/
def Counters.index (counters : Counters) : Index := counters.map UInt64.toNat

namespace Shape

/-- Counters that all stand at the first position. -/
def start (shape : Shape) : Counters := shape.map fun _ => 0

/-- Moves counters on by one position, and says whether they have all started again instead. -/
def advance : Shape → Counters → Counters × Bool
  | extent :: inner, counter :: counters =>
    match advance inner counters with
    | (next, false) => (counter :: next, false)
    | (next, true) =>
      if counter + 1 < extent then ((counter + 1) :: next, false) else (0 :: next, true)
  | _, counters => (counters, true)

/-- A bound for `headroom`: the product of the extents, each with one to spare. -/
def spread (shape : Shape) : Nat := shape.foldr (fun extent inner => (extent.toNat + 1) * inner) 1

/-- How often each counter can still go up, read as the digits of one number. -/
def headroom : Shape → Counters → Nat
  | extent :: inner, counter :: counters =>
    (extent.toNat - (counter + 1).toNat) * spread inner + headroom inner counters
  | _, _ => 0

theorem headroom_lt (shape : Shape) (counters : Counters) :
    shape.headroom counters < shape.spread := by
  induction shape generalizing counters with
  | nil => simp [headroom, spread]
  | cons extent inner ih =>
    have spread_cons : spread (extent :: inner) = extent.toNat * spread inner + spread inner :=
      Nat.succ_mul ..
    cases counters with
    | nil =>
      have some := Nat.zero_lt_of_lt (ih [])
      simp only [headroom, spread_cons]
      omega
    | cons counter counters =>
      have digit : (extent.toNat - (counter + 1).toNat) * spread inner ≤
          extent.toNat * spread inner := Nat.mul_le_mul_right _ (Nat.sub_le ..)
      have rest := ih counters
      rw [headroom, spread_cons]
      omega

/-- A counter below its extent goes up without wrapping. -/
theorem toNat_counter_add_one {extent counter : UInt64} (below : counter < extent) :
    (counter + 1).toNat = counter.toNat + 1 := by
  rw [UInt64.toNat_add]
  exact Nat.mod_eq_of_lt (Nat.lt_of_le_of_lt (UInt64.lt_iff_toNat_lt.mp below) extent.toNat_lt)

theorem headroom_advance {shape : Shape} {counters next : Counters}
    (moved : shape.advance counters = (next, false)) :
    shape.headroom next < shape.headroom counters := by
  induction shape generalizing counters next with
  | nil => simp [advance] at moved
  | cons extent inner ih => cases counters with
    | nil => simp [advance] at moved
    | cons counter counters =>
      rw [advance] at moved
      split at moved
      · next tail same =>
        cases moved
        exact Nat.add_lt_add_left (ih same) _
      · next tail carried =>
        split at moved
        · next up =>
          cases moved
          -- one step of this counter outweighs all that the inner ones regain
          have bound := UInt64.lt_iff_toNat_lt.mp up
          have nearer : extent.toNat - (counter + 1 + 1).toNat + 1 ≤
              extent.toNat - (counter + 1).toNat := by
            rw [toNat_counter_add_one up]
            omega
          have digit := Nat.mul_le_mul_right (spread inner) nearer
          have rest := headroom_lt inner tail
          rw [Nat.succ_mul] at digit
          rw [headroom, headroom]
          omega
        · simp at moved

variable {m : Type → Type} [Monad m]

-- semireducible, so that the run of a kernel on given operands can still be computed
/-- Runs `step` at the position of the counters and at each one that they move on to. -/
@[semireducible]
def eachFrom (shape : Shape) (step : Index → m Unit) (counters : Counters) : m Unit := do
  step counters.index
  match _moved : shape.advance counters with
  | (next, false) => eachFrom shape step next
  | (_, true) => pure ()
termination_by shape.headroom counters
decreasing_by exact headroom_advance _moved

/-- Runs `step` at each position of the index space, the last axis fastest. -/
def eachIndex (shape : Shape) (step : Index → m Unit) : m Unit :=
  if shape.contains 0 then pure () else eachFrom shape step shape.start

end Shape

end QuantLinear
