import HostBoundary.Proofs.HeapActs
import HostBoundary.Proofs.PropertyMap

namespace HostBoundary

open Act

variable {σ τ : Type} {host : Host σ} {diary : σ → List (World Unit)} {n : EnvironmentId}
  {e : EngineId}

namespace Environment

lemma propertyNames_of_resolved {w : World σ} {object : Handle} {r : ObjectRef} {names : List Value}
    (hin : (View.environment n e).In w) (hr : ((w.engine e).heap.resolveHandle object).1 = some r)
    (hnames : (w.engine e).heap.ownNames? r = some names) :
    propertyNames host n object w = arrayOf host n names
      (w.setHeap e ((w.engine e).heap.resolveHandle object).2) := by
  generalize hresolved : ((w.engine e).heap.resolveHandle object).2 = h
  have hresolve : Turns n e (resolve n object : Act σ _) (w.engine e).heap (some r) h :=
    turns_onHeap (Prod.ext hr hresolved)
  have hsame : h.ownNames? r = some names := by
    rw [← hresolved, Heap.ownNames?, Heap.object?, (Heap.alike_resolveHandle _ object).objects]
    exact hnames
  have hinspect : Turns n e (inspect n object (·.ownNames?) : Act σ _) (w.engine e).heap
      (h.ownNames? r) h := hresolve.bind (turns_heapOf.bind (turns_pure _))
  rw [propertyNames, Engine.bind_apply, hinspect w hin rfl, hsame]

end Environment

-- The names of an object's own properties come as a new array of them all, in their order, where an
-- array can be as long as they are many.
theorem property_names_come_whole (hh : host.Heedful diary nowhere) (w : World σ)
    (hw : w.Charted diary nowhere host) (handlers : Host τ) (m : World τ)
    (hm : m.seen ∈ w.moments diary) (n : EnvironmentId) (e : EngineId)
    (hin : (View.environment n e).In m) (hroom : (m.engine e).heap.Roomy)
    (object : Handle) (r : ObjectRef) (hr : ((m.engine e).heap.resolveHandle object).1 = some r)
    (names : List Value) (hnames : (m.engine e).heap.ownNames? r = some names)
    (hfits : names.length ≤ (m.engine e).heap.limits.maxArrayLength)
    (hwords : names.length ≤ 2 ^ 31) :
    let h := (m.engine e).heap
    ∃ array h', Environment.propertyNames handlers n object m =
        (some (Environment.wrap array), m.modifyEngine e ({ · with heap := h' })) ∧
      h.object? array = none ∧ h'.object? array = some (.ofBody (.array names.toArray)) ∧
      ∀ s o, h.object? s = some o → h'.object? s = some o := by
  intro h
  have hwf : h.WellFormed := (hw.shapely hh hm hin.1 hroom).1
  obtain ⟨hin₁, hheap₁⟩ := hin.modifyHeap (h.resolveHandle object).2
  have hobjects := (h.alike_resolveHandle object).objects
  obtain ⟨array, h', hturns, hadds, hfresh, hmade⟩ := Environment.turns_arrayOf handlers
    (n := n) (e := e) names (by rwa [Heap.WellFormed, hobjects]) (by rwa [hobjects])
    ((h.moves_resolveHandle object).leads.limits.symm ▸ hfits) (by omega)
  refine ⟨array, h', ?_, by rwa [Heap.object?, ← hobjects], hmade, fun s o ho => ?_⟩
  · rw [Environment.propertyNames_of_resolved hin hr hnames, hturns _ hin₁ hheap₁,
      World.modifyEngine_heap]
  · exact hadds.object s o (by rwa [Heap.object?, hobjects])

def crowded : World Unit :=
  World.after Host.inert { host := () } [.newEngine { maxArrayLength := 1 }, .attach ⟨0⟩,
    .operate ⟨0⟩ .newObject,
    .operate ⟨0⟩ (.setProperty (.transient (.first 1)) (.utf8 "x") (.boolean true)),
    .operate ⟨0⟩ (.setProperty (.transient (.first 1)) (.utf8 "y") (.boolean true)),
    .operate ⟨0⟩ .newObject,
    .operate ⟨0⟩ (.setProperty (.transient (.first 2)) (.utf8 "x") (.boolean true))]

theorem names_beyond_array_length_lost :
    (crowded.engine ⟨0⟩).heap.ownNames? (.first 1) = some [.text "x", .text "y"] ∧
    (Environment.propertyNames Host.inert ⟨0⟩ (.transient (.first 1)) crowded).1 = none ∧
    ((Environment.propertyNames Host.inert ⟨0⟩ (.transient (.first 1)) crowded).2.environment
      ⟨0⟩).exception = .engine "RangeError: Invalid array length" := by
  decide +kernel

theorem property_names_come_whole_crowded :
    ∃ array h', Environment.propertyNames Host.inert ⟨0⟩ (.transient (.first 2)) crowded =
        (some (.transient array), crowded.modifyEngine ⟨0⟩ ({ · with heap := h' })) ∧
      h'.object? array = some (.ofBody (.array #[.text "x"])) := by
  have hlimit : (crowded.engine ⟨0⟩).heap.limits.maxArrayLength = 1 := by decide +kernel
  obtain ⟨array, h', hnames, -, hmade, -⟩ := property_names_come_whole Host.inert_heedful crowded
    (World.charted_inert () _) Host.inert crowded
    (by simp [World.moments]) ⟨0⟩ ⟨0⟩ ⟨by decide +kernel, by decide +kernel, by decide +kernel⟩
    (show _ < _ by decide +kernel) (.transient (.first 2)) (.first 2) (by decide +kernel) [.text "x"]
    (by decide +kernel) (by rw [hlimit]; decide) (by decide)
  exact ⟨array, h', hnames, hmade⟩

end HostBoundary
