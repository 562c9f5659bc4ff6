import Mathlib.Data.List.Perm.Basic
import Mathlib.Data.String.Basic
import QuantLinear.Ownership

/-!
Every owned buffer is released once.

The books balance after every step: what was released so far and what the slots would still release
are together what was entrusted to the slots (`released_run`). Where all buffers are distinct, a
buffer is therefore either still owned by one slot or has been released, once, and no slot owns it.
-/

namespace QuantLinear

namespace Slots

/-- The slots stand in the order of their names, so that no name comes twice. -/
def Ordered (slots : Slots) : Prop := slots.Pairwise fun a b => a.1 < b.1

/-- The number of slots whose buffer would release a memory. -/
def owners (slots : Slots) (memory : Nat) : Nat :=
  slots.countP fun entry => entry.2.owning && entry.2.memory == some memory

section Books

variable {slots : Slots}

private theorem find?_eq_none_of_lt {name : String} (below : ∀ entry ∈ slots, name < entry.1) :
    slots.find? name = none := by
  induction slots with
  | nil => rfl
  | cons entry rest ih =>
    have apart : name ≠ entry.1 := ne_of_lt (below entry List.mem_cons_self)
    rw [find?_cons, if_neg apart]
    exact ih fun other member => below other (List.mem_cons_of_mem _ member)

private theorem releasedAt_cons (key : String) (held : Buffer) (rest : Slots) (name : String) :
    releasedAt ((key, held) :: rest) name =
      if name = key then held.released else rest.releasedAt name := by
  rw [releasedAt, find?_cons]
  split <;> rfl

private theorem releasedAt_of_find? {name : String} {buffer : Buffer}
    (found : slots.find? name = some buffer) : slots.releasedAt name = buffer.released := by
  rw [releasedAt, found]
  rfl

private theorem mem_put {name : String} {buffer : Buffer} {entry : String × Buffer}
    (member : entry ∈ slots.put name buffer) : entry.1 = name ∨ entry ∈ slots := by
  induction slots with
  | nil => exact .inl (congrArg Prod.fst (List.mem_singleton.mp member))
  | cons first rest ih =>
    simp only [put] at member
    split at member
    · rcases List.mem_cons.mp member with rfl | member
      · exact .inl rfl
      · exact .inr (List.mem_cons_of_mem _ member)
    · split at member
      · rcases List.mem_cons.mp member with rfl | member
        · exact .inl rfl
        · exact .inr member
      · rcases List.mem_cons.mp member with rfl | member
        · exact .inr List.mem_cons_self
        · exact (ih member).imp_right (List.mem_cons_of_mem _)

theorem Ordered.put (ordered : slots.Ordered) (name : String) (buffer : Buffer) :
    (slots.put name buffer).Ordered := by
  induction slots with
  | nil => exact List.pairwise_singleton _ _
  | cons first rest ih =>
    obtain ⟨below, ordered⟩ := List.pairwise_cons.mp ordered
    simp only [Slots.put]
    split
    · next here => exact List.pairwise_cons.mpr ⟨here ▸ below, ordered⟩
    · next apart =>
      split
      · next before =>
        refine List.pairwise_cons.mpr ⟨fun entry member => ?_, List.pairwise_cons.mpr ⟨below, ordered⟩⟩
        rcases List.mem_cons.mp member with rfl | member
        · exact before
        · exact lt_trans before (below entry member)
      · next after =>
        refine List.pairwise_cons.mpr ⟨fun entry member => ?_, ih ordered⟩
        rcases mem_put member with here | member
        · exact here ▸ lt_of_le_of_ne (not_lt.mp after) (Ne.symm apart)
        · exact below entry member

theorem Ordered.erase (ordered : slots.Ordered) (name : String) : (slots.erase name).Ordered :=
  ordered.filter _

/-- Filling a slot releases what it held and takes charge of the new buffer. -/
private theorem releasedAll_put (ordered : slots.Ordered) (name : String) (buffer : Buffer) :
    (slots.releasedAt name ++ (slots.put name buffer).releasedAll).Perm
      (buffer.released ++ slots.releasedAll) := by
  induction slots with
  | nil => exact .refl _
  | cons first rest ih =>
    obtain ⟨key, held⟩ := first
    obtain ⟨below, ordered⟩ := List.pairwise_cons.mp ordered
    simp only [Slots.put, releasedAt_cons]
    split
    · exact List.perm_append_comm_assoc ..
    · split
      · next before =>
        -- the new name comes before all others, so no slot has it
        have none : releasedAt rest name = [] := by
          rw [releasedAt, find?_eq_none_of_lt fun entry member => lt_trans before (below entry member)]
          rfl
        rw [none]
        exact .refl _
      · calc List.Perm (releasedAt rest name ++ (held.released ++ releasedAll (put rest name buffer)))
              (held.released ++ (releasedAt rest name ++ releasedAll (put rest name buffer))) :=
            List.perm_append_comm_assoc ..
          List.Perm _ (held.released ++ (buffer.released ++ releasedAll rest)) :=
            (ih ordered).append_left _
          List.Perm _ (buffer.released ++ (held.released ++ releasedAll rest)) :=
            List.perm_append_comm_assoc ..

/-- Emptying the first slot leaves the others. -/
private theorem erase_head {key : String} {held : Buffer} {rest : Slots}
    (ordered : Ordered ((key, held) :: rest)) : erase ((key, held) :: rest) key = rest := by
  rw [Slots.erase, List.filter_cons_of_neg (by simp)]
  refine List.filter_eq_self.mpr fun entry member => ?_
  simpa using ne_of_gt ((List.pairwise_cons.mp ordered).1 entry member)

/-- Emptying a slot releases what it held and keeps charge of the others. -/
private theorem releasedAll_erase (ordered : slots.Ordered) (name : String) :
    (slots.releasedAt name ++ (slots.erase name).releasedAll).Perm slots.releasedAll := by
  induction slots with
  | nil => exact .refl _
  | cons first rest ih =>
    obtain ⟨key, held⟩ := first
    rw [releasedAt_cons]
    split
    · next here =>
      rw [here, erase_head ordered]
      exact .refl _
    · next apart =>
      have kept : Slots.erase ((key, held) :: rest) name = (key, held) :: Slots.erase rest name := by
        rw [Slots.erase, List.filter_cons_of_pos (by simpa using Ne.symm apart), Slots.erase]
      rw [kept]
      calc List.Perm (releasedAt rest name ++ (held.released ++ releasedAll (erase rest name)))
            (held.released ++ (releasedAt rest name ++ releasedAll (erase rest name))) :=
          List.perm_append_comm_assoc ..
        List.Perm _ (held.released ++ releasedAll rest) := (ih ordered.of_cons).append_left _

/-- The owners of a memory are as many as it would be released times. -/
private theorem owners_eq_count (slots : Slots) (memory : Nat) :
    slots.owners memory = slots.releasedAll.count memory := by
  induction slots with
  | nil => rfl
  | cons entry rest ih =>
    have first : entry.2.released.count memory =
        if entry.2.owning && entry.2.memory == some memory then 1 else 0 := by
      rw [Buffer.released]
      cases entry.2.owning <;> cases entry.2.memory <;> simp [List.count_singleton]
    rw [owners, List.countP_cons, releasedAll, List.flatMap_cons, List.count_append, first]
    rw [owners, releasedAll] at ih
    rw [ih, Nat.add_comm]

end Books

end Slots

namespace OwnershipStep

/-- The memory of the buffer that a step brings in. -/
def brought : OwnershipStep → List Nat
  | .create _ buffer => buffer.memory.toList
  | _ => []

/-- The memory that a step brings in together with the duty to release it. -/
def entrusted : OwnershipStep → List Nat
  | .create _ buffer => buffer.released
  | _ => []

def inspects : OwnershipStep → Bool
  | .inspect _ => true
  | _ => false

private theorem entrusted_sublist (step : OwnershipStep) : step.entrusted.Sublist step.brought := by
  cases step with
  | create slot buffer =>
    rw [entrusted, brought, Buffer.released]
    split
    · exact .refl _
    · exact List.nil_sublist _
  | _ => exact .refl _

section Step

variable {slots : Slots}

private theorem ordered_apply (ordered : slots.Ordered) (step : OwnershipStep) :
    (step.apply slots).1.Ordered := by
  cases step with
  | create slot buffer => exact ordered.put _ _
  | moveConstruct slot source =>
    simp only [apply]
    split
    · exact ordered
    · exact (ordered.put _ _).put _ _
  | moveAssign slot source =>
    simp only [apply]
    split
    · split
      · exact ordered
      · exact (ordered.put _ _).put _ _
    · exact ordered
  | destroy slot => exact ordered.erase slot
  | inspect slot => exact ordered

/-- The books of one step balance: what it releases and what the slots then own is what they owned
before and what it brought in. -/
private theorem released_apply (ordered : slots.Ordered) (step : OwnershipStep) :
    ((step.apply slots).2 ++ (step.apply slots).1.releasedAll).Perm
      (step.entrusted ++ slots.releasedAll) := by
  cases step with
  | create slot buffer => exact Slots.releasedAll_put ordered slot buffer
  | moveConstruct slot source =>
    simp only [apply]
    cases found : slots.find? source with
    | none => exact .refl _
    | some moved =>
      -- the source is emptied first, so a slot that moves from itself releases nothing
      have emptied := Slots.releasedAll_put ordered source moved.emptied
      rw [Slots.releasedAt_of_find? found] at emptied
      have filled := Slots.releasedAll_put (ordered.put source moved.emptied) slot moved
      exact filled.trans emptied
  | moveAssign slot source =>
    simp only [apply]
    cases found : slots.find? source with
    | none => exact .refl _
    | some moved =>
      cases there : slots.find? slot with
      | none => exact .refl _
      | some held =>
        by_cases apart : slot = source
        · simp only [if_pos apart]
          exact .refl _
        · simp only [if_neg apart]
          have filled := Slots.releasedAll_put ordered slot moved
          rw [Slots.releasedAt_of_find? there] at filled
          have still : (slots.put slot moved).find? source = some moved := by
            rw [Slots.find?_put, if_neg (Ne.symm apart), found]
          have emptied := Slots.releasedAll_put (ordered.put slot moved) source moved.emptied
          rw [Slots.releasedAt_of_find? still] at emptied
          -- what moved is owned by the source before and by the slot after
          have both := (List.perm_append_comm_assoc ..).trans ((emptied.append_left _).trans filled)
          exact (List.perm_append_left_iff _).mp both
  | destroy slot => exact Slots.releasedAll_erase ordered slot
  | inspect slot => exact .refl _

end Step

end OwnershipStep

namespace Slots

/-- The slots after some steps, and the memory that these released, in order. -/
def run (slots : Slots) : List OwnershipStep → Slots × List Nat
  | [] => (slots, [])
  | step :: rest =>
    let (next, released) := step.apply slots
    let (last, later) := run next rest
    (last, released ++ later)

private theorem run_append (slots : Slots) (first second : List OwnershipStep) :
    slots.run (first ++ second) =
      (((slots.run first).1.run second).1, (slots.run first).2 ++ ((slots.run first).1.run second).2) := by
  induction first generalizing slots with
  | nil => rfl
  | cons step rest ih => simp only [List.cons_append, run, ih, List.append_assoc]

/-- Looking at slots makes no difference: without its looks a run leaves the same buffers in the slots and
releases the same memory in the same order. -/
theorem run_without_inspections (slots : Slots) (steps : List OwnershipStep) :
    slots.run (steps.filter fun step => !step.inspects) = slots.run steps := by
  induction steps generalizing slots with
  | nil => rfl
  | cons step rest ih =>
    cases looks : step.inspects with
    | false =>
      rw [List.filter_cons_of_pos (by rw [looks]; rfl)]
      simp only [run, ih]
    | true =>
      have nothing : step.apply slots = (slots, []) := by
        cases step with
        | inspect slot => rfl
        | _ => cases looks
      rw [List.filter_cons_of_neg (by simp [looks]), run, nothing, ih]
      rfl

section Run

variable {slots : Slots}

private theorem ordered_run (ordered : slots.Ordered) (steps : List OwnershipStep) :
    (slots.run steps).1.Ordered := by
  induction steps generalizing slots with
  | nil => exact ordered
  | cons step rest ih => exact ih (step.ordered_apply ordered)

/-- The books of a run balance. -/
theorem released_run (ordered : slots.Ordered) (steps : List OwnershipStep) :
    ((slots.run steps).2 ++ (slots.run steps).1.releasedAll).Perm
      (steps.flatMap OwnershipStep.entrusted ++ slots.releasedAll) := by
  induction steps generalizing slots with
  | nil => exact .refl _
  | cons step rest ih =>
    have first := step.released_apply ordered
    have others := ih (step.ordered_apply ordered)
    simp only [run, List.flatMap_cons, List.append_assoc]
    calc List.Perm _ ((step.apply slots).2 ++ (rest.flatMap OwnershipStep.entrusted ++
            (step.apply slots).1.releasedAll)) := others.append_left _
      List.Perm _ (rest.flatMap OwnershipStep.entrusted ++
          ((step.apply slots).2 ++ (step.apply slots).1.releasedAll)) :=
        List.perm_append_comm_assoc ..
      List.Perm _ (rest.flatMap OwnershipStep.entrusted ++ (step.entrusted ++ slots.releasedAll)) :=
        first.append_left _
      List.Perm _ (step.entrusted ++ (rest.flatMap OwnershipStep.entrusted ++ slots.releasedAll)) :=
        List.perm_append_comm_assoc ..

/-- Destroying what all slots hold, in their order, leaves none and releases all that they own. -/
private theorem run_destroy (ordered : slots.Ordered) :
    slots.run (slots.map fun entry => .destroy entry.1) = ([], slots.releasedAll) := by
  induction slots with
  | nil => rfl
  | cons entry rest ih =>
    obtain ⟨key, held⟩ := entry
    simp only [List.map_cons, run, OwnershipStep.apply, erase_head ordered, ih ordered.of_cons,
      releasedAt_cons, if_true, releasedAll, List.flatMap_cons]

/-- From empty slots on, each memory was entrusted as often as it was released or is owned. -/
private theorem count_run (steps : List OwnershipStep) (memory : Nat) :
    (run [] steps).2.count memory + (run [] steps).1.owners memory =
      (steps.flatMap OwnershipStep.entrusted).count memory := by
  have empty : Ordered [] := List.Pairwise.nil
  have balance := (released_run empty steps).count_eq memory
  rw [List.count_append, ← owners_eq_count] at balance
  simpa [releasedAll] using balance

end Run

/-- The steps that destroy all that the slots hold. -/
def destruction (slots : Slots) : List OwnershipStep := slots.map fun entry => .destroy entry.1

private theorem entrusted_destruction (slots : Slots) :
    slots.destruction.flatMap OwnershipStep.entrusted = [] := by
  rw [destruction, List.flatMap_map]
  exact List.flatMap_eq_nil_iff.mpr fun _ _ => rfl

end Slots

private theorem OwnershipStep.nodup_entrusted {steps : List OwnershipStep}
    (distinct : (steps.flatMap OwnershipStep.brought).Nodup) :
    (steps.flatMap OwnershipStep.entrusted).Nodup := by
  refine distinct.sublist ?_
  induction steps with
  | nil => exact .refl _
  | cons step rest ih =>
    exact step.entrusted_sublist.append (ih (List.nodup_append.mp distinct).2.1)

open Slots in
/-- Buffers that are put into slots, moved between them in any way, replaced and destroyed: once all
that remain are destroyed, the memory of every buffer that came with the duty to release it has been
released once, and no other memory ever. Until it is released it has one owner, and from then on
none. -/
theorem buffers_released_once (steps : List OwnershipStep)
    (distinct : (steps.flatMap OwnershipStep.brought).Nodup) :
    (run [] (steps ++ (run [] steps).1.destruction)).1 = [] ∧
    (∀ memory, (run [] (steps ++ (run [] steps).1.destruction)).2.count memory =
      if memory ∈ steps.flatMap OwnershipStep.entrusted then 1 else 0) ∧
    ∀ done rest, steps ++ (run [] steps).1.destruction = done ++ rest →
      ∀ memory ∈ done.flatMap OwnershipStep.entrusted,
        (run [] done).1.owners memory = if memory ∈ (run [] done).2 then 0 else 1 := by
  have emptied : (run [] (steps ++ (run [] steps).1.destruction)).1 = [] := by
    rw [run_append, destruction, run_destroy (ordered_run .nil steps)]
  -- the destructions at the end bring in nothing
  have whole : (steps ++ (run [] steps).1.destruction).flatMap OwnershipStep.entrusted =
      steps.flatMap OwnershipStep.entrusted := by
    rw [List.flatMap_append, entrusted_destruction, List.append_nil]
  have once := OwnershipStep.nodup_entrusted distinct
  refine ⟨emptied, fun memory => ?_, fun done rest split memory member => ?_⟩
  · have balance := count_run (steps ++ (run [] steps).1.destruction) memory
    rw [emptied, whole, once.count] at balance
    exact balance
  · have known : (done.flatMap OwnershipStep.entrusted).Nodup := by
      rw [← whole, split, List.flatMap_append] at once
      exact (List.nodup_append.mp once).1
    have balance := count_run done memory
    rw [known.count, if_pos member] at balance
    split
    · next released =>
      have some := List.count_pos_iff.mpr released
      omega
    · next kept =>
      rw [List.count_eq_zero.mpr kept] at balance
      omega

/-- Two buffers, of which one is moved onto the other, further on and onto itself, and a third that
no one is to release. -/
theorem buffers_released_once_chain :
    let owned (memory : Nat) : Buffer := ⟨some memory, 4, .host, true⟩
    let steps : List OwnershipStep := [.create "a" (owned 0), .create "b" (owned 1),
      .create "c" { owned 2 with owning := false }, .moveAssign "a" "b", .moveConstruct "d" "a",
      .moveAssign "d" "d"]
    (steps.flatMap OwnershipStep.brought).Nodup ∧ (Slots.run [] steps).2 = [0] ∧
      ∀ memory, (Slots.run [] (steps ++ (Slots.run [] steps).1.destruction)).2.count memory =
        if memory ∈ [0, 1] then 1 else 0 := by
  refine ⟨by decide, by decide, fun memory => ?_⟩
  exact (buffers_released_once _ (by decide)).2.1 memory

end QuantLinear
