import QuantLinear.Proofs.Checkpoint

/-!
Layers that stay unquantized.

The name of a layer is a path through the modules of its model, with dots between the parts. A layer
is ignored where it is one of the named modules or lies below one: all parts of the module's name
come first in its own (`isIgnored_iff_components`). Parts are compared whole, so that a module whose
name merely goes on with further letters is another one, and empty parts count like all others.
-/

namespace QuantLinear

/-- The parts of a name between its dots. -/
def components (path : String) : List String := (path.split '.').toList.map String.Slice.copy

private theorem components_eq (path : String) :
    components path = (path.toList.splitOn '.').map String.ofList := String.toList_split_char

/-- What follows a dot has parts of its own. -/
private theorem components_append (path below : String) :
    components (path ++ "." ++ below) = components path ++ components below := by
  have dot : (path ++ "." ++ below).toList = path.toList ++ '.' :: below.toList := by simp
  rw [components_eq, dot, List.splitOn_append_cons_self, List.map_append, ← components_eq,
    ← components_eq]

/-- Parts joined by dots give the name back. -/
private theorem intercalate_components (path : String) : ".".intercalate (components path) = path := by
  apply String.toList_injective
  rw [components_eq, String.toList_intercalate, List.map_map]
  simp [Function.comp_def, List.intercalate_splitOn]

/-- The parts of one name come first in another where the other is the same or goes on with a dot. -/
private theorem components_prefix_iff {name path : String} :
    components name <+: components path ↔ path = name ∨ ∃ below, path = name ++ "." ++ below := by
  constructor
  · rintro ⟨rest, split⟩
    have whole := intercalate_components path
    have start := intercalate_components name
    rw [← split] at whole
    cases rest with
    | nil =>
      left
      rw [List.append_nil, start] at whole
      exact whole.symm
    | cons part others =>
      right
      refine ⟨".".intercalate (part :: others), ?_⟩
      have named : components name ≠ [] := by
        rw [components_eq]
        simp
      rw [String.intercalate_append_of_ne_nil named (List.cons_ne_nil _ _), start] at whole
      exact whole.symm
  · rintro (rfl | ⟨below, rfl⟩)
    · exact List.prefix_rfl
    · rw [components_append]
      exact List.prefix_append _ _

namespace Checkpoint

variable {checkpoint : Checkpoint} {path : String}

private theorem isIgnored_iff : checkpoint.isIgnored path = true ↔
    ∃ name ∈ checkpoint.ignoredLayers, path = name ∨ ∃ below, path = name ++ "." ++ below := by
  have continued (name : String) : (name.toList ++ ['.']).isPrefixOf path.toList = true ↔
      ∃ below, path = name ++ "." ++ below := by
    constructor
    · intro starts
      obtain ⟨below, split⟩ : name.toList ++ ['.'] <+: path.toList := by simpa using starts
      refine ⟨String.ofList below, String.toList_injective ?_⟩
      simpa using split.symm
    · rintro ⟨below, rfl⟩
      simp
  simp only [isIgnored, List.any_eq_true, Bool.or_eq_true, beq_iff_eq, continued]

private theorem layerSpec_eq_error {inFeatures outFeatures : UInt64} {hasBias : Bool}
    {paramsKind : ElementKind} {fault : Fault} :
    checkpoint.layerSpec path inFeatures outFeatures hasBias paramsKind = .error fault ↔
      checkpoint.isIgnored path = true ∧ fault = .checkpoint (.layerIgnored path) := by
  cases ignored : checkpoint.isIgnored path with
  | false =>
    obtain ⟨spec, made⟩ : ∃ spec,
        checkpoint.layerSpec path inFeatures outFeatures hasBias paramsKind = .ok spec :=
      ⟨_, layerSpec_eq_ok.mpr ⟨ignored, rfl⟩⟩
    simp [made]
  | true =>
    have refused : checkpoint.layerSpec path inFeatures outFeatures hasBias paramsKind =
        .error (.checkpoint (.layerIgnored path)) := by
      simp only [layerSpec, ignored]
      rfl
    simp [refused, eq_comm]

/-- A layer is ignored where all parts of a named module come first in its name, and with it
everything below it. Layers are refused exactly where they are ignored. -/
theorem isIgnored_iff_components (checkpoint : Checkpoint) (path : String) :
    (checkpoint.isIgnored path = true ↔
      ∃ name ∈ checkpoint.ignoredLayers, components name <+: components path) ∧
    (checkpoint.isIgnored path = true →
      ∀ below, checkpoint.isIgnored (path ++ "." ++ below) = true) ∧
    ∀ inFeatures outFeatures hasBias paramsKind fault,
      checkpoint.layerSpec path inFeatures outFeatures hasBias paramsKind = .error fault ↔
        checkpoint.isIgnored path = true ∧ fault = .checkpoint (.layerIgnored path) := by
  have iff_parts (path : String) : checkpoint.isIgnored path = true ↔
      ∃ name ∈ checkpoint.ignoredLayers, components name <+: components path := by
    simp only [isIgnored_iff, components_prefix_iff]
  refine ⟨iff_parts path, fun ignored below => ?_, fun _ _ _ _ _ => layerSpec_eq_error⟩
  obtain ⟨name, listed, first⟩ := (iff_parts path).mp ignored
  refine (iff_parts _).mpr ⟨name, listed, ?_⟩
  rw [components_append]
  exact first.trans (List.prefix_append _ _)

/-- A checkpoint that leaves one module unquantized, and what has an empty first part. -/
def ignoringMlp : Checkpoint where
  source := .null
  capability := {}
  staticActivation := false
  blockSize := none
  ignoredLayers := ["model.layers.0.mlp", ""]

theorem isIgnored_iff_components_mlp :
    ignoringMlp.isIgnored "model.layers.0.mlp" = true ∧
    (∀ below, ignoringMlp.isIgnored ("model.layers.0.mlp" ++ "." ++ below) = true) ∧
    (¬∃ name ∈ ignoringMlp.ignoredLayers, components name <+: components "model.layers.0.mlp_extra") ∧
    ∃ name ∈ ignoringMlp.ignoredLayers, components name <+: components "..lm_head" := by
  have named : ignoringMlp.isIgnored "model.layers.0.mlp" = true := rfl
  have other : ¬ignoringMlp.isIgnored "model.layers.0.mlp_extra" = true := by decide
  obtain ⟨-, descends, -⟩ := isIgnored_iff_components ignoringMlp "model.layers.0.mlp"
  exact ⟨named, descends named, fun listed => other ((isIgnored_iff_components _ _).1.mpr listed),
    (isIgnored_iff_components _ _).1.mp rfl⟩

end Checkpoint

end QuantLinear
