import QuantLinear.Proofs.EndToEnd

/-!
What a call on a layer does to the tensors that are there.

The kernels of a call write in place: quantized activations, packed weights, products and sums. All
of them are new storages of the call. So a call changes no storage that was there before, however it
ends, and its result shares a storage neither with these nor with the parameters that the layer has
from then on (`applyLayer_disturbs_nothing`).
-/

namespace QuantLinear

open QuantLinear.Action

/-- What is left behind by a call that may have made a layer ready: new storages. -/
theorem Touched.memory {before after : Machine} {id : LayerId} (touched : Touched before id after) :
    before.memory.Evolves [] after.memory := by
  rcases touched with followed | ⟨layer, ready, middle, -, ensured, followed⟩
  · exact followed.memory
  · exact ensured.memory.trans followed.memory

/-- The result of a product lies in a storage of the product. -/
private theorem ends_product_storage (layer : Layer) (activation : Tensor) (machine : Machine) :
    (layer.product activation).Ends machine
      (fun result after => machine.memory.next ≤ result.storage ∧
        result.storage < after.memory.next)
      (fun _ _ => True) := by
  simp only [Layer.product, ends_bind]
  refine (ends_normalizedActivation activation machine).mono (fun operand first made => ?_)
    fun _ _ _ => trivial
  refine (ends_allocateTensor _ activation.kind layer.device first).mono
    (fun output placed fresh => ?_) fun _ _ _ => trivial
  have new : machine.memory.next ≤ output.storage := by
    rw [fresh.storage]
    exact made.1.memory.grows
  -- the bias goes to the output, and the result is a view of it
  have final (later : Machine) (written : placed.Follows [output.storage] later) :
      Ends (do
        layer.addBias output
        let view ← output.toView.reshape (activation.shape.dropLast ++ [layer.spec.outFeatures])
        share view) later
        (fun result after => machine.memory.next ≤ result.storage ∧
          result.storage < after.memory.next)
        (fun _ _ => True) := by
    simp only [ends_bind]
    apply (ends_addBias operand.tensor 0 .f32 written).mono
    · intro _ after added
      rw [ends_lift]
      refine ⟨fun view reshaped => ?_, fun _ _ => trivial⟩
      obtain ⟨-, rfl⟩ := View.reshape_eq_ok.mp reshaped
      apply (ends_share _ after).mono
      · rintro result last ⟨-, shown, memory⟩
        rw [shown, memory]
        exact ⟨new, Nat.lt_of_lt_of_le fresh.stored added.1.memory.grows⟩
      · exact fun _ _ none => none.elim
    · exact fun _ _ _ => trivial
  simp only [ends_bind] at final
  cases layer.variant with
  | standard granularity =>
    simp only [ends_bind]
    exact (ends_multiplyStandard layer granularity operand.tensor output 0 .f32 placed).mono
      (fun _ later done => final later done.1) fun _ _ _ => trivial
  | block rows columns =>
    simp only [ends_bind]
    exact (ends_multiplyBlocks layer rows columns operand.tensor output 0 .f32 placed).mono
      (fun _ later done => final later done.1) fun _ _ _ => trivial
  | packed =>
    simp only [ends_bind]
    exact (ends_multiplyPacked layer operand.tensor output 0 .f32 placed).mono
      (fun _ later done => final later done.1) fun _ _ _ => trivial

/-- A parameter that a layer holds exists. -/
theorem Layer.Held.parameter {layer : Layer} {mem : Memory} (held : layer.Held mem) {name : String}
    {tensor : Tensor} (member : (name, tensor) ∈ layer.parameters) : mem.Has tensor.toView := by
  simp only [Layer.parameters, List.mem_append, List.mem_cons, Option.mem_toList, Option.map_eq_some_iff,
    List.mem_filterMap] at member
  rcases member with (same | ⟨bias, present, same⟩) | ⟨role, -, scale, there, same⟩
  · cases same
    exact held.weight
  · cases same
    exact held.bias _ present
  · cases same
    exact held.scales role _ (ScaleSlot.held_of_tensor? there)

/-- The result of a call lies in a storage that came after those of the layer made ready. -/
private theorem ends_applyLayer_storage (id : LayerId) (activation : Handle) (machine : Machine) :
    (applyLayer id activation).Ends machine
      (fun result after => ∃ layer ready middle, machine.layers[id]? = some layer ∧
        Ensured machine id layer ready middle ∧ middle.Follows [] after ∧
        middle.memory.next ≤ result.storage ∧ result.storage < after.memory.next)
      (fun _ after => Touched machine id after) := by
  apply ends_applyLayer_through
  · intro _ _ touched
    exact touched
  · intro layer ready middle x there ensured _ _
    apply ((ends_product ready x [] .f32 middle).and (ends_product_storage ready x middle)).mono
    · rintro result after ⟨⟨followed, -⟩, stored⟩
      exact ⟨layer, ready, middle, there, ensured, followed, stored⟩
    · rintro _ after ⟨⟨followed, -⟩, -⟩
      exact .inr ⟨layer, ready, middle, there, ensured, followed⟩

/-- A call on a layer leaves the bytes of every storage as they were, whether it returns or fails.
Its result lies in a new storage, and in another one than each parameter of the layer, also than
those that the call itself made. -/
theorem applyLayer_disturbs_nothing (id : LayerId) (activation : Handle) (machine : Machine) :
    (∀ fault after, applyLayer id activation machine = .error fault after →
      ∀ storage < machine.memory.next,
        after.memory.contents storage = machine.memory.contents storage) ∧
    ∀ result after, applyLayer id activation machine = .ok result after →
      (∀ storage < machine.memory.next,
        after.memory.contents storage = machine.memory.contents storage) ∧
      machine.memory.next ≤ result.storage ∧ result.storage < after.memory.next ∧
      (machine.Holds → ∀ layer, after.layers[id]? = some layer →
        ∀ name parameter, (name, parameter) ∈ layer.parameters →
          parameter.storage ≠ result.storage) := by
  have ended := ends_applyLayer_storage id activation machine
  constructor
  · intro fault after failed storage there
    have touched := ended.failure failed
    exact touched.memory.contents storage there List.not_mem_nil
  · intro result after returned
    obtain ⟨layer, ready, middle, there, ensured, followed, new, stored⟩ := ended.answer returned
    have evolved := ensured.memory.trans followed.memory
    refine ⟨fun storage known => evolved.contents storage known List.not_mem_nil,
      Nat.le_trans ensured.memory.grows new, stored, ?_⟩
    intro holds last found name parameter member
    -- the layer is as it was made ready, and its parameters lie below the result
    rw [followed.layers, ensured.found there] at found
    cases found
    have held := ensured.held (holds id layer there)
    exact Nat.ne_of_lt (Nat.lt_of_lt_of_le (held.parameter member).stored new)

/-- Activations read across a storage of two rows, and a call without activations. -/
theorem applyLayer_disturbs_nothing_columns :
    (∃ result after, applyLayer 0 (some columnsOfTwo) withTwoToThree = .ok result after ∧
      after.memory.contents columnsOfTwo.storage =
        withTwoToThree.memory.contents columnsOfTwo.storage ∧
      ∀ layer, after.layers[0]? = some layer → layer.weight.storage ≠ result.storage) ∧
    ∃ fault after, applyLayer 0 none withTwoToThree = .error fault after ∧
      after.memory.contents 0 = withTwoToThree.memory.contents 0 := by
  constructor
  · have returns : (match applyLayer 0 (some columnsOfTwo) withTwoToThree with
      | .ok _ _ => true
      | .error _ _ => false) = true := by decide +kernel
    split at returns
    · next result after returned =>
      obtain ⟨kept, -, -, apart⟩ := (applyLayer_disturbs_nothing 0 _ _).2 result after returned
      refine ⟨result, after, returned, kept _ (by decide), fun layer found => ?_⟩
      exact apart reachable_withTwoToThree.holds layer found "weight" layer.weight
        List.mem_cons_self
    · cases returns
  · have fails : (match applyLayer 0 none withTwoToThree with
      | .ok _ _ => false
      | .error _ _ => true) = true := by decide +kernel
    split at fails
    · cases fails
    · next fault after failed =>
      exact ⟨fault, after, failed,
        (applyLayer_disturbs_nothing 0 none withTwoToThree).1 fault after failed 0 (by decide)⟩

end QuantLinear
