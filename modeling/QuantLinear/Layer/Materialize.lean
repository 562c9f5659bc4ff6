import QuantLinear.Layer.Load
import QuantLinear.Scheme.Expected

/-!
Materializing a layer: every scale that its variant requires is made ready, scales that no one
loaded become ones, and a packed variant packs its weight.

All of it is prepared aside. The layer changes once everything has succeeded, and only then are the
made-up scales reported.
-/

namespace QuantLinear

/-- Makes ready one scale for a layer. A scale that no one loaded becomes ones and is reported. -/
def readyScale (layer : Layer) (role : ScaleRole) : Action (Tensor × Option Placeholder) := do
  let device := layer.weight.device
  let path := layer.spec.path
  let expected ← layer.variant.expectedShape (some role) layer.spec
  match (layer.scales.get role).tensor? with
  | none =>
    let ones ← oneTensor expected layer.spec.paramsKind device
    return (ones, some ⟨path, role, expected, layer.spec.paramsKind, device⟩)
  | some scale =>
    require (scale.shape == expected) (.shapeMismatch role.label expected scale.shape)
    require scale.kind.isFloating (.layer (.scaleKind role path scale.kind))
    let moved ← if scale.device = device then pure scale else toDevice scale device
    return (← contiguousTensor moved, none)

def readyScales (layer : Layer) (slots : ScaleSlots) :
    List ScaleRole → Action (ScaleSlots × List Placeholder)
  | [] => pure (slots, [])
  | role :: rest => do
    let (scale, report) ← readyScale layer role
    let (slots, reports) ← readyScales layer (slots.set role (.held scale)) rest
    return (slots, report.toList ++ reports)

/-- The weight in the form that the variant multiplies with. -/
def readyWeight (layer : Layer) : Action (Tensor × Bool) := do
  if layer.variant = .packed ∧ !layer.repacked then
    let spec := layer.spec
    require (spec.outFeatures % packTile == 0 && spec.inFeatures % packTile == 0)
      (.unsupportedVariant layer.variant.describe layer.weight.device
        (.notTiled spec.weightShape packTile))
    return (← repacked (some layer.weight), true)
  else return (layer.weight, layer.repacked)

/-- The materialized form of a layer and the reports on the scales made up for it. -/
def materialized (layer : Layer) : Action (Layer × List Placeholder) := do
  let required := layer.variant.requiredScales layer.spec
  let (scales, reports) ← readyScales layer layer.scales required
  let (weight, isRepacked) ← readyWeight layer
  return ({ layer with
    scales := scales
    weight := weight
    repacked := isRepacked
    materialized := true
    placeholders := layer.placeholders + reports.length }, reports)

/-- Hands reports to the observer, which may fail on any of them. -/
def notify : List Placeholder → Action Unit
  | [] => pure ()
  | report :: rest => do
    match (← get).observer with
    | .silent => pure ()
    | .collecting =>
      modify fun machine => { machine with reports := machine.reports ++ [report] }
      notify rest
    | .refusing refuses =>
      let refused := refuses (← get).reports report
      modify fun machine => { machine with reports := machine.reports ++ [report] }
      if refused then throw (.layer .observerFailed)
      notify rest

/-- Materializes a layer unless it already is. -/
def ensureMaterialized (id : LayerId) : Action Unit := do
  let layer ← findLayer id
  unless layer.materialized do
    let (ready, reports) ← materialized layer
    setLayer id ready
    modify fun machine => { machine with placeholders := machine.placeholders + reports.length }
    notify reports

end QuantLinear
