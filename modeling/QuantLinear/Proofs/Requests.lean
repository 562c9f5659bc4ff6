import QuantLinear.Proofs.Chain

/-!
What new tensors and views of them promise, and what their storages hold.

Counts of elements and of bytes are 64-bit words. A new tensor asks for as many bytes as its elements
take modulo the word, and gets these and no more (`Fresh.size`); no request is refused for its size. So
its storage has room for its elements exactly where they take fewer than `2 ^ 64` bytes. A tensor that is
filled on the way is made where the elements that it counts, modulo the word, can be written, which is so
for some whose count wraps as well. Viewing a tensor under another shape compares the counts modulo the
word (`View.numel_eq_iff_modEq`), and the shapes have equally many elements exactly where the counts wrap
equally often (`requests_cover_elements`).
-/

namespace QuantLinear

open QuantLinear.Action

/-- The ways to make a tensor of a shape. -/
inductive Maker where
  | empty
  | full (value : Binary64)
  | zeros
  | ones
deriving DecidableEq, Repr

namespace Maker

def run (maker : Maker) (shape : Shape) (kind : ElementKind) (device : Device) : Action Tensor :=
  match maker with
  | empty => allocateTensor shape kind device
  | full value => filledTensor shape value kind device
  | zeros => zeroTensor shape kind device
  | ones => oneTensor shape kind device

end Maker

/-- Counts are compared modulo the word. -/
theorem View.numel_eq_iff_modEq {v : View} {shape : Shape} :
    shape.numel = v.numel ↔ shape.count ≡ v.shape.count [MOD 2 ^ 64] := by
  rw [← UInt64.toNat_inj, View.numel, Shape.toNat_numel, Shape.toNat_numel, Nat.ModEq]

/-- Whether a request is answered: its device has a runtime and, where the elements are written, their
kind can be written and they do not reach past the bytes asked for. -/
def Maker.Answers (maker : Maker) (shape : Shape) (kind : ElementKind) (device : Device)
    (machine : Machine) : Prop :=
  (machine.runtimes device.type).isSome = true ∧
    (maker = .empty ∨ kind.isFloating = true ∧ shape.count % 2 ^ 64 * kind.size < 2 ^ 64)

/-- A filled tensor is made where it counts no more elements than it has bytes for. -/
private theorem ends_filledTensor_answers {maker : Maker} (writes : maker ≠ .empty) (shape : Shape)
    (value : Binary64) (kind : ElementKind) (device : Device) (machine : Machine) :
    (filledTensor shape value kind device).Ends machine
      (fun tensor after => maker.Answers shape kind device machine ∧
        Fresh machine kind shape device tensor after)
      (fun _ _ => ¬maker.Answers shape kind device machine) := by
  have ended := ends_filledTensor shape value kind device machine
  rw [Shape.toNat_numel] at ended
  apply ended.mono
  · rintro tensor after ⟨⟨found, floating, room⟩, fresh, -⟩
    exact ⟨⟨found, .inr ⟨floating, room⟩⟩, fresh⟩
  · rintro _ after ⟨-, large⟩ ⟨found, answers⟩
    obtain ⟨floating, room⟩ := answers.resolve_left writes
    exact absurd room (Nat.not_lt.mpr (large found floating).2)

theorem Maker.ends_run (maker : Maker) (shape : Shape) (kind : ElementKind) (device : Device)
    (machine : Machine) :
    (maker.run shape kind device).Ends machine
      (fun tensor after => maker.Answers shape kind device machine ∧
        Fresh machine kind shape device tensor after)
      (fun _ _ => ¬maker.Answers shape kind device machine) := by
  cases maker with
  | empty =>
    apply (ends_allocateTensor_found shape kind device machine).mono
    · rintro tensor after ⟨found, fresh, -⟩
      exact ⟨⟨found, .inl rfl⟩, fresh⟩
    · rintro _ after ⟨-, none⟩ ⟨found, -⟩
      cases none.symm.trans found
  | full | zeros | ones => exact ends_filledTensor_answers (by nofun) shape _ kind device machine

namespace Fresh

variable {before after : Machine} {kind : ElementKind} {shape : Shape} {device : Device}
  {tensor : Tensor} (fresh : Fresh before kind shape device tensor after)

include fresh

theorem toNat_byteCount : tensor.byteCount.toNat = shape.count * kind.size % 2 ^ 64 := by
  rw [View.byteCount, View.numel, fresh.kind_eq, fresh.shape_eq, toNat_byteCount_mod]

/-- A new tensor is viewed under another shape where the counts agree modulo the word. -/
theorem reshape_eq_ok (other : Shape) {v : View} : tensor.reshape other = .ok v ↔
    other.count ≡ shape.count [MOD 2 ^ 64] ∧
      v = { tensor.toView with shape := other, strides := other.contiguousStrides } := by
  rw [View.reshape_eq_ok, View.numel_eq_iff_modEq, fresh.shape_eq]
  simp only [fresh.isContiguous, true_and]

end Fresh

/-- Numbers that agree modulo the word are one number where they hold the word equally often. -/
private theorem eq_iff_div_eq_of_modEq {a b : Nat} (same : a ≡ b [MOD 2 ^ 64]) :
    a = b ↔ a / 2 ^ 64 = b / 2 ^ 64 := by
  rw [Nat.ModEq] at same
  omega

/-- A tensor is made on each device that has a runtime and for every shape, and where its elements are
written for each kind in which they can be and as long as those that it counts fit into the bytes it asked
for. It asks for its bytes modulo the word and gets just these, so it has room for its elements exactly
where they take fewer than `2 ^ 64` bytes. It can be viewed under the shapes whose counts agree with its
own modulo the word, and these have as many elements exactly where their counts hold the word as often; so
those whose counts are words do, and then the new view has its bytes in the storage as well. -/
theorem requests_cover_elements (maker : Maker) (shape : Shape) (kind : ElementKind) (device : Device)
    (machine : Machine) :
    ((∃ tensor after, maker.run shape kind device machine = .ok tensor after) ↔
      (machine.runtimes device.type).isSome = true ∧
        (maker = .empty ∨ kind.isFloating = true ∧ shape.count % 2 ^ 64 * kind.size < 2 ^ 64)) ∧
    ∀ tensor after, maker.run shape kind device machine = .ok tensor after →
      tensor.shape = shape ∧ tensor.kind = kind ∧
        tensor.byteCount.toNat = shape.count * kind.size % 2 ^ 64 ∧
        after.memory.size tensor.storage = tensor.byteCount.toNat ∧
        (shape.count * kind.size ≤ tensor.byteCount.toNat ↔ shape.count * kind.size < 2 ^ 64) ∧
        ∀ other : Shape,
          ((∃ viewed later, viewThrough (some tensor) (·.reshape other) after = .ok viewed later) ↔
            other.count ≡ shape.count [MOD 2 ^ 64]) ∧
          ∀ viewed later, viewThrough (some tensor) (·.reshape other) after = .ok viewed later →
            viewed.shape = other ∧ viewed.kind = kind ∧ viewed.storage = tensor.storage ∧
              (other.count = shape.count ↔ other.count / 2 ^ 64 = shape.count / 2 ^ 64) ∧
              (shape.count * kind.size < 2 ^ 64 → other.count < 2 ^ 64 →
                other.count * kind.size = later.memory.size viewed.storage) := by
  have ended := maker.ends_run shape kind device machine
  refine ⟨⟨fun returned => ?_, fun possible => ?_⟩, fun tensor after returned => ?_⟩
  · obtain ⟨tensor, after, returned⟩ := returned
    exact (ended.answer returned).1
  · obtain ⟨tensor, after, returned, -⟩ := ended.returned_of fun _ _ refused => refused possible
    exact ⟨tensor, after, returned⟩
  · obtain ⟨-, fresh⟩ := ended.answer returned
    have bytes := fresh.toNat_byteCount
    refine ⟨fresh.shape_eq, fresh.kind_eq, bytes, fresh.size.trans bytes.symm, ?_,
      fun other => ⟨?_, fun viewed later seen => ?_⟩⟩
    · rw [bytes]
      omega
    · rw [viewThrough_returns_iff]
      simp only [fresh.reshape_eq_ok, exists_and_left, exists_eq, and_true]
    · obtain ⟨-, made, same⟩ := (ends_viewThrough tensor (·.reshape other) after).answer seen
      obtain ⟨counts, view⟩ := (fresh.reshape_eq_ok other).mp made
      have storage : viewed.storage = tensor.storage := by rw [view]
      refine ⟨by rw [view], by rw [view, fresh.kind_eq], storage, eq_iff_div_eq_of_modEq counts,
        fun small fits => ?_⟩
      -- neither count holds the word once
      have count : other.count = shape.count :=
        (eq_iff_div_eq_of_modEq counts).mpr (by
          rw [Nat.div_eq_of_lt fits, Nat.div_eq_of_lt (Shape.count_lt_of_bytes small)])
      rw [same, storage, fresh.size_of_lt small, count]

/-- Ones in two rows, viewed as one row. -/
theorem requests_cover_elements_twoRows : ∃ tensor after viewed later,
    Maker.ones.run [2, 3] (.float .f32) .host .initial = .ok tensor after ∧
      viewThrough (some tensor) (·.reshape [6]) after = .ok viewed later ∧
      later.memory.size viewed.storage = 24 := by
  obtain ⟨returns, made⟩ := requests_cover_elements .ones [2, 3] (.float .f32) .host .initial
  obtain ⟨tensor, after, returned⟩ := returns.mpr ⟨rfl, .inr ⟨rfl, by decide⟩⟩
  obtain ⟨-, -, -, -, -, views⟩ := made tensor after returned
  obtain ⟨viewed, later, seen⟩ := (views [6]).1.mpr rfl
  obtain ⟨-, -, -, -, room⟩ := (views [6]).2 viewed later seen
  exact ⟨tensor, after, viewed, later, returned, seen, (room (by decide) (by decide)).symm⟩

/-- Where counts wrap, seven bytes are asked for a tensor of more than `2 ^ 127` elements, filled or not,
and a tensor of one element is viewed as one of more than `2 ^ 127`. -/
theorem requests_wrap :
    (∀ maker ∈ [Maker.empty, .ones], ∃ tensor after,
      maker.run [0xFFFFFFFFFFFFFFFF, 0xFFFFFFFFFFFFFFF9] (.float .f8) .host .initial =
        .ok tensor after ∧
      tensor.byteCount.toNat = 7 ∧ after.memory.size tensor.storage = 7 ∧
      2 ^ 127 < tensor.shape.count * tensor.kind.size) ∧
    ∃ tensor after viewed later,
      Maker.ones.run [1] (.float .f32) .host .initial = .ok tensor after ∧
      viewThrough (some tensor) (·.reshape [0xFFFFFFFFFFFFFFFF, 0xFFFFFFFFFFFFFFFF]) after =
        .ok viewed later ∧
      tensor.shape.count = 1 ∧ 2 ^ 127 < viewed.shape.count := by
  refine ⟨?_, _, _, _, _, rfl, rfl, by decide, by decide⟩
  simp only [List.forall_mem_cons, List.not_mem_nil, false_imp_iff, implies_true, and_true]
  exact ⟨⟨_, _, rfl, by decide, by decide, by decide⟩, _, _, rfl, by decide, by decide, by decide⟩

end QuantLinear
