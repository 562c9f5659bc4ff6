import QuantLinear.Proofs.Run

/-!
What a caller may rely on when a layer is applied.

A valid call succeeds, as long as there is room for the scales that are made up, and no other one does.
What it returns is the function of the reference, whatever layouts the tensors of the layer and the
activations have and whenever the layer was materialized.
-/

namespace QuantLinear

open QuantLinear.Action

/-- The bytes of activations and of an output for them can be counted. -/
structure LayerSpec.Spans (spec : LayerSpec) (x : Tensor) : Prop where
  activation : x.shape.count * x.kind.size < 2 ^ 63
  output : Shape.count (x.shape.dropLast ++ [spec.outFeatures]) * x.kind.size < 2 ^ 63

section Apply

variable {machine middle after : Machine} {id : LayerId} {layer ready : Layer} {x result : Tensor}

/-- Activations that a layer takes can be multiplied once it is materialized. -/
theorem Ensured.prepared {kind : FloatKind} (ensured : Ensured machine id layer ready middle)
    (sound : layer.Sound) (held : layer.Held machine.memory) (fits : layer.spec.Fits)
    (given : machine.memory.Has x.toView) (takes : ready.Takes x) (float : x.kind = .float kind)
    (spans : layer.spec.Spans x) : Prepared middle ready x x.shape.dropLast kind := by
  obtain ⟨lead, shape⟩ := takes.shape
  refine ⟨ensured.sound sound, ensured.materialized, ensured.held held, ?_,
    given.later ensured.memory, float, takes.wide, ?_, takes.device, spans.activation, ?_⟩
  · rw [ensured.spec.1]
    exact fits
  · rw [shape, List.dropLast_concat]
  · rw [ensured.spec.1]
    exact spans.output

/-- What a caller can tell from a result. -/
private theorem applyLayer_returned {activation : Handle} (there : machine.layers[id]? = some layer)
    (sound : layer.Sound) (held : layer.Held machine.memory) (fits : layer.spec.Fits)
    (given : machine.memory.HasValue activation)
    (spans : ∀ x, activation = some x → layer.spec.Spans x)
    (returned : applyLayer id activation machine = .ok result after) :
    ∃ ready middle x kind, activation = some x ∧ Ensured machine id layer ready middle ∧
      Prepared middle ready x x.shape.dropLast kind ∧ ready.Divides middle.memory ∧
      Produced middle.memory ready x result x.shape.dropLast kind after.memory := by
  obtain ⟨-, -, -, x, -, -, -, taken, ⟨-, wide, -⟩, -⟩ :=
    (ends_applyLayer id activation [] .f32 machine).answer returned
  obtain ⟨kind, float⟩ :=
    ElementKind.float_of_isFloating (ElementKind.isFloating_of_isWideFloating wide)
  -- The answer is read again, now that the shape and the kind of the activations are known.
  obtain ⟨known, ready, middle, y, found, ensured, -, same, takes, made⟩ :=
    (ends_applyLayer id activation x.shape.dropLast kind machine).answer returned
  cases there.symm.trans found
  cases taken.symm.trans same
  have prepared := ensured.prepared sound held fits (given x taken) takes float (spans x taken)
  obtain ⟨divides, produced⟩ := made prepared
  exact ⟨ready, middle, x, kind, taken, ensured, prepared, divides, produced⟩

end Apply

/-- Every entry that a call returns is the entry of the reference for the numbers that the layer had
at any point before, as long as nothing was loaded into it since and nothing wrote to its numbers.
Neither the layouts of the tensors nor the time at which the layer was materialized make a
difference. -/
theorem applyLayer_output {first machine after : Machine} {id : LayerId} {layer : Layer}
    {activation result : Tensor} (reachable : first.Reachable) (there : first.layers[id]? = some layer)
    (fits : layer.spec.Fits)
    (scales : layer.materialized = false → ∀ role ∈ layer.required,
      ∀ scale, layer.scales.get role = .held scale → scale.Fits)
    (continues : first.Continues id machine) (given : machine.memory.Has activation.toView)
    (spans : layer.spec.Spans activation)
    (returned : applyLayer id (some activation) machine = .ok result after) :
    ∃ lead kind, activation.kind = .float kind ∧ result.kind = .float kind ∧
      activation.shape = lead ++ [layer.spec.inFeatures] ∧
      result.shape = lead ++ [layer.spec.outFeatures] ∧
      ∀ index, lead.Within index → ∀ j < layer.spec.outFeatures.toNat,
        after.memory.load result.toView (index ++ [j]) =
          Reference.output (layer.numbers first.memory) layer.spec kind
            (fun p => machine.memory.number activation.toView kind (index ++ [p])) j := by
  obtain ⟨later, found, same, readable, agree⟩ := continues.numbers there
    ⟨reachable.sound id layer there, reachable.holds id layer there, fits, scales⟩
  rw [← same] at spans
  obtain ⟨ready, middle, x, kind, taken, ensured, prepared, -, produced⟩ :=
    applyLayer_returned found readable.sound readable.held readable.fits
      (fun tensor present => Option.some.inj present ▸ given)
      (fun tensor present => Option.some.inj present ▸ spans) returned
  cases taken
  have spec : ready.spec = layer.spec := ensured.spec.1.trans same
  -- The numbers stay from the first machine to the call, and within the call until it multiplies.
  have numbers : LayerNumbers.Agree layer.spec (ready.numbers middle.memory)
      (layer.numbers first.memory) := by
    have kept := ensured.numbers readable.sound readable.held readable.fits readable.scales
    rw [same] at kept
    exact kept.trans agree
  refine ⟨activation.shape.dropLast, kind, prepared.kind_eq, produced.kind_eq.trans prepared.kind_eq,
    spec ▸ prepared.shape, spec ▸ produced.shape, fun index inside j below => ?_⟩
  rw [produced.words index inside j (by rw [spec]; exact below), spec,
    numbers.output_eq fits kind _ below]
  simp only [ensured.memory.number given List.not_mem_nil]

/-- Two columns of two activations each: the rows lie across them. -/
def columnsOfTwo : Tensor where
  kind := .float .f32
  shape := [2, 2]
  strides := [1, 2]
  storage := 2
  offset := 0
  device := .host
  handle := 2

/-- A layer of two inputs and three outputs as it is after a program built it. -/
def twoToThree : Layer where
  spec := { inFeatures := 2, outFeatures := 3, hasBias := true }
  device := .host
  weight := {
    kind := .float .f8, shape := [3, 2], strides := [2, 1], storage := 0, offset := 0,
    device := .host, handle := 0 }
  bias := some {
    kind := .float .f32, shape := [3], strides := [1], storage := 1, offset := 0,
    device := .host, handle := 1 }
  scales := {}
  repacked := false
  materialized := false
  placeholders := 0

def fillTwoToThree : Command :=
  .tensors fun mem =>
    (mem.allocate #[0, 0, 0x80, 0x3f, 0, 0, 0, 0x40, 0, 0, 0x40, 0x40, 0, 0, 0x80, 0x40]).writeBytes
      0 0 [0x38, 0x40, 0x44, 0x48, 0x38, 0x40]

/-- The machine after a program built the layer and filled it. -/
def withTwoToThree : Machine :=
  (Machine.initial.step (.build twoToThree.spec .host)).step fillTwoToThree

theorem reachable_withTwoToThree : withTwoToThree.Reachable :=
  .step fillTwoToThree (.step (.build twoToThree.spec .host) .initial trivial)
    (Nat.le_of_ble_eq_true rfl)

private theorem layers_withTwoToThree : withTwoToThree.layers[0]? = some twoToThree := rfl

private theorem fits_twoToThree : twoToThree.spec.Fits where
  weight := by decide
  rows _ _ blocks := by cases (rfl : twoToThree.spec.variant = .standard .tensor).symm.trans blocks
  columns _ _ blocks := by cases (rfl : twoToThree.spec.variant = .standard .tensor).symm.trans blocks

private theorem spans_columnsOfTwo : twoToThree.spec.Spans columnsOfTwo := ⟨by decide, by decide⟩

theorem applyLayer_output_columns : ∃ result after,
    applyLayer 0 (some columnsOfTwo) (withTwoToThree.step (.materialize 0)) = .ok result after ∧
      ∀ index, Shape.Within [2] index → ∀ j < 3, after.memory.load result.toView (index ++ [j]) =
        Reference.output (twoToThree.numbers withTwoToThree.memory) twoToThree.spec .f32
          (fun p => (withTwoToThree.step (.materialize 0)).memory.number columnsOfTwo.toView .f32
            (index ++ [p])) j := by
  have returns : (match applyLayer 0 (some columnsOfTwo) (withTwoToThree.step (.materialize 0)) with
    | .ok _ _ => true
    | .error _ _ => false) = true := by decide +kernel
  split at returns
  · next result after returned =>
    obtain ⟨lead, kind, float, -, shape, -, words⟩ := applyLayer_output reachable_withTwoToThree
      layers_withTwoToThree fits_twoToThree
      (fun _ role _ scale held => by cases role <;> cases held)
      (.step (.materialize 0) .refl trivial trivial) ⟨rfl, by decide⟩ spans_columnsOfTwo returned
    cases float
    have rows : [2] ++ [2] = lead ++ [2] := shape
    obtain rfl := List.append_cancel_right rows
    exact ⟨result, after, returned, words⟩
  · cases returns

end QuantLinear
