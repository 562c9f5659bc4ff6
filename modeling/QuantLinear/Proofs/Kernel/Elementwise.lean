import QuantLinear.Proofs.Action
import QuantLinear.Proofs.Kernel.Loops
import QuantLinear.Proofs.Kernel.Outcome

/-!
What the kernels write that treat each position on its own.
-/

namespace QuantLinear.Kernel

open Memory

theorem evolves_runRearrange (target source : View) (mem : Memory) :
    mem.Evolves [target.storage] (runRearrange target source mem) :=
  evolves_foldl (fun mem _ => evolves_writeBytes mem ..) mem _

section Rearrange

variable {mem : Memory} {target source : View} (separate : mem.Separate target)
  (there : mem.Has source) (apart : source.storage ≠ target.storage)
  (kind : target.kind = source.kind) (shape : target.shape = source.shape)

include separate there apart kind shape

private theorem filled_runRearrange : Rewrites [target] mem (runRearrange target source mem) ∧
    Filled mem target (mem.load source) (· ∈ source.shape.indices)
      (runRearrange target source mem) := by
  refine Filled.foldl separate (mem.load source)
    (fun mid index => mid.copyBytes target.storage (target.address index) source.storage
      (source.address index) source.kind.size)
    (fun index => by rw [kind]; exact mem.load_lt source index) (Shape.nodup_indices source.shape)
    (fun index member => by rw [shape]; exact (Shape.mem_indices _ _).mp member)
    fun mid rewritten index _ _ => ?_
  have bytes := bytesOfWord_wordOfBytes
    (mid.readBytes source.storage (source.address index) source.kind.size)
  rw [length_readBytes] at bytes
  rw [← rewritten.evolves.load there.stored (by simpa using apart), copyBytes, store, setWordAt,
    Memory.load, wordAt, kind, bytes]

/-- Rearranging writes to the elements of its target and to nothing else. -/
theorem rewrites_runRearrange : Rewrites [target] mem (runRearrange target source mem) :=
  (filled_runRearrange separate there apart kind shape).1

/-- A rearranged view shows the words of its source. -/
theorem load_runRearrange {index : Index} (inside : source.shape.Within index) :
    (runRearrange target source mem).load target index = mem.load source index :=
  (filled_runRearrange separate there apart kind shape).2.written index (by rwa [shape])
    ((Shape.mem_indices _ _).mpr inside)

end Rearrange

theorem evolves_runAdd {target left right : View} {mem after : Memory}
    (ran : runAdd target left right mem = .ok after) : mem.Evolves [target.storage] after := by
  unfold runAdd at ran
  split at ran
  · cases ran
    exact evolves_foldl (fun _ _ => evolves_store ..) _ _
  · cases ran

/-- Adding to a view in place: each position is read before it is written. -/
theorem runAdd_spec {mem : Memory} {target right : View} {kind rightKind : FloatKind}
    (dense : mem.Dense target) (float : target.kind = .float kind) (there : mem.Has right)
    (rightFloat : right.kind = .float rightKind) (apart : right.storage ≠ target.storage) :
    ∃ after, runAdd target target right mem = .ok after ∧
      ∀ index, target.shape.Within index → after.load target index =
        kind.encode (mem.number target kind index + mem.number right rightKind index) := by
  obtain ⟨-, filled⟩ := Filled.foldl dense.separate
    (fun index =>
      kind.encode (mem.number target kind index + mem.number right rightKind index))
    (fun mid index => mid.setNumber target kind index
      (mid.number target kind index + mid.number right rightKind index))
    (fun index => by rw [float]; exact kind.encode_lt _) (Shape.nodup_indices target.shape)
    (fun index member => (Shape.mem_indices _ _).mp member)
    fun mid rewritten index _ unwritten => by
      simp only [setNumber, number, unwritten,
        rewritten.evolves.load there.stored (by simpa using apart)]
  refine ⟨_, ?_, fun index inside => filled.written index inside ((Shape.mem_indices _ _).mpr inside)⟩
  simp only [runAdd, float, rightFloat]
  rfl

end QuantLinear.Kernel
