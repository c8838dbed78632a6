import GraphicsEngine.Trace

/-! What a trace shows to all but the reader of the notices. -/

namespace GraphicsEngine

/-- What happened, apart from notices. -/
def Occurrence.effects (seen : List Occurrence)
    : List Occurrence :=
  seen.filter (·.notice?.isNone)

@[simp] theorem Occurrence.effects_append (earlier later : List Occurrence)
    : effects (earlier ++ later) = effects earlier ++ effects later :=
  List.filter_append ..

@[simp] theorem Occurrence.effects_notice (notice : Notice) (seen : List Occurrence)
    : effects (.notice notice :: seen) = effects seen :=
  rfl

@[simp] theorem Occurrence.effects_nil
    : effects [] = [] :=
  rfl

/-- How many words were read as commands. -/
def Occurrence.fetchCount (seen : List Occurrence)
    : Nat :=
  (seen.filterMap fetch?).length

@[simp] theorem Occurrence.fetchCount_append (earlier later : List Occurrence)
    : fetchCount (earlier ++ later) = fetchCount earlier + fetchCount later := by
  simp [fetchCount]

@[simp] theorem Occurrence.fetchCount_notice (notice : Notice) (seen : List Occurrence)
    : fetchCount (.notice notice :: seen) = fetchCount seen :=
  rfl

@[simp] theorem Occurrence.fetchCount_nil
    : fetchCount [] = 0 :=
  rfl

namespace Trace

/-- What is added to a trace, in the form of a trace itself. -/
theorem append_eq_append_toArray (trace : Trace) (seen : List Occurrence)
    : trace ++ seen = trace ++ (seen.toArray : Trace) :=
  Array.ext' (by simp)

@[simp] theorem fetches_toArray (seen : List Occurrence)
    : fetches seen.toArray = seen.filterMap Occurrence.fetch? := by
  simp [fetches]

@[simp] theorem events_toArray (seen : List Occurrence)
    : events seen.toArray = seen.filterMap Occurrence.event? := by
  simp [events]

@[simp] theorem raised_toArray (seen : List Occurrence)
    : raised seen.toArray = seen.filterMap Occurrence.raised? := by
  simp [raised]

theorem raised_eq_filterMap (trace : Trace)
    : trace.raised = trace.toList.filterMap Occurrence.raised? :=
  Array.toList_filterMap ..

theorem delivered_eq_filterMap (trace : Trace)
    : trace.delivered = trace.toList.filterMap Occurrence.delivered? :=
  Array.toList_filterMap ..

/-- A view that shows no notices shows the effects and nothing else. -/
theorem filterMap_effects {α : Type} (view : Occurrence → Option α)
    (blind : ∀ notice, view (.notice notice) = none) (trace : Trace)
    : (trace.filterMap view).toList = (Occurrence.effects trace.toList).filterMap view := by
  rw [Array.toList_filterMap, Occurrence.effects, List.filterMap_filter]
  congr 1
  funext occurrence
  cases occurrence <;> simp [Occurrence.notice?, blind]

/-- A view that shows no notices shows the effects of two traces one after the other. -/
theorem filterMap_of_effects {α : Type} (view : Occurrence → Option α)
    (blind : ∀ notice, view (.notice notice) = none) {all before behind : Trace}
    (effects : Occurrence.effects all.toList
      = Occurrence.effects before.toList ++ Occurrence.effects behind.toList)
    : (all.filterMap view).toList
      = (before.filterMap view).toList ++ (behind.filterMap view).toList := by
  simp only [filterMap_effects view blind, effects, List.filterMap_append]

/-- A trace whose only effects are deliveries shows nothing but them. -/
theorem of_effects_eq_delivered {trace : Trace} {interrupts : List Interrupt}
    (shown : Occurrence.effects trace.toList = interrupts.map .delivered)
    : trace.fetches = [] ∧ trace.events = [] ∧ trace.raised = []
      ∧ trace.delivered = interrupts := by
  refine ⟨?_, ?_, ?_, ?_⟩
  · rw [fetches, filterMap_effects _ fun _ => rfl, shown]
    simp [List.filterMap_map, Function.comp_def, Occurrence.fetch?]
  · rw [events, filterMap_effects _ fun _ => rfl, shown]
    simp [List.filterMap_map, Function.comp_def, Occurrence.event?]
  · rw [raised, filterMap_effects _ fun _ => rfl, shown]
    simp [List.filterMap_map, Function.comp_def, Occurrence.raised?]
  · rw [delivered, filterMap_effects _ fun _ => rfl, shown]
    simp [List.filterMap_map, Function.comp_def, Occurrence.delivered?]

/-- Interrupts that are delivered one after the other are all effects. -/
theorem effects_map_delivered (interrupts : Array Interrupt)
    : Occurrence.effects (interrupts.map Occurrence.delivered).toList
      = interrupts.toList.map .delivered := by
  rw [Array.toList_map]
  exact List.filter_eq_self.mpr (by simp [Occurrence.notice?])

variable {trace other : Trace}
  (same : Occurrence.effects other.toList = Occurrence.effects trace.toList)

include same

/-- Traces with the same effects show the same fetches. -/
theorem fetches_of_effects
    : other.fetches = trace.fetches := by
  rw [fetches, fetches, filterMap_effects _ fun _ => rfl, filterMap_effects _ fun _ => rfl, same]

theorem events_of_effects
    : other.events = trace.events := by
  rw [events, events, filterMap_effects _ fun _ => rfl, filterMap_effects _ fun _ => rfl, same]

theorem raised_of_effects
    : other.raised = trace.raised := by
  rw [raised, raised, filterMap_effects _ fun _ => rfl, filterMap_effects _ fun _ => rfl, same]

theorem delivered_of_effects
    : other.delivered = trace.delivered := by
  rw [delivered, delivered, filterMap_effects _ fun _ => rfl, filterMap_effects _ fun _ => rfl,
    same]

end Trace

end GraphicsEngine
