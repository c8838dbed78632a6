import GraphicsEngine.Proofs.Engine.Waiting
import GraphicsEngine.Proofs.Execution.Announcements
import Mathlib.Data.List.Forall2

/-! Lists run in the order of the queue. A drain gives each of them its time at the front, one after
the other and once only, until one stalls; the lists behind that one are left as they are.
-/

namespace GraphicsEngine

/-- A list that leaves the queue was passed over since it had been completed before, or was
completed, or was aborted.
-/
def DisplayList.DoneWith (list : DisplayList) (visit : Visit)
    : Prop :=
  (visit.ending = .skipped ∧ list.state = .completed ∧ visit.list = list ∧ visit.trace = #[])
  ∨ (visit.ending = .completed ∧ list.state ≠ .completed ∧ visit.list.state = .completed)
  ∨ ((visit.ending = .unmapped ∨ visit.ending = .aborted)
    ∧ list.state ≠ .completed ∧ visit.list.state ≠ .completed)

/-- What is seen of an outcome is what is seen of each visit, one visit after the other. -/
structure Outcome.Shows {α : Type} (outcome : Outcome α) (visits : List Visit)
    : Prop where
  fetches : outcome.trace.fetches = visits.flatMap (·.trace.fetches)
  events : outcome.trace.events = visits.flatMap (·.trace.events)
  raised : outcome.trace.raised = visits.flatMap (·.trace.raised)
  delivered : outcome.trace.delivered = visits.flatMap (·.trace.delivered)

namespace Queue

/-- Lists that are taken off one by one, by number, leave those behind them. -/
theorem foldl_remove (gone left : Queue)
    : (ids gone).foldl remove (gone ++ left) = left := by
  induction gone with
  | nil => rfl
  | cons list rest ih =>
      have first : remove (list :: (rest ++ left)) list.id = rest ++ left := remove_front ..
      simp only [ids, List.map_cons, List.cons_append, List.foldl_cons, first]
      exact ih

end Queue

namespace Engine

/-- Lists are at the front one after the other, each of them once. Every list finds the engine that
the one before it has left behind.
-/
inductive InTurn (host : Host)
    : Engine → List DisplayList → List Visit → Engine → Prop
  | nobody (engine : Engine) : InTurn host engine [] [] engine
  | next {engine after : Engine} {list : DisplayList} {others : List DisplayList} {visit : Visit}
    {visits : List Visit} (visited : engine.visit host list #[] = some visit)
    (inTurn : InTurn host visit.engine others visits after)
    : InTurn host engine (list :: others) (visit :: visits) after

/-- How a drain comes to its end when all lists in front of the given ones have left: none is left,
or the first one stalls.
-/
inductive Closes (host : Host) (engine : Engine)
    : Queue → Bool → Engine → List Visit → Prop
  | empties : Closes host engine [] true { engine with queue := [], current := none } []
  | stays {list : DisplayList} {visit : Visit} (rest : Queue)
    (visited : engine.visit host list #[] = some visit) (stalled : visit.ending = .stalled)
    : Closes host engine (list :: rest) false { visit.engine with queue := visit.list :: rest }
        [visit]

variable {host : Host} {engine after final : Engine} {list later : DisplayList} {queue : Queue}
  {ending : Ending} {answer : Bool} {seen : List Occurrence}

/-- A list's time at the front, with what is seen of it alone. -/
theorem Visits.alone (visits : Visits host engine list ending later after seen)
    : engine.visit host list #[]
      = some { ending, list := later, engine := after, trace := seen.toArray } := by
  have visited := visits.visit #[]
  rwa [Trace.append_eq_append_toArray, Array.empty_append] at visited

/-- A list that leaves the queue is done with in the way in which its time at the front ended. -/
theorem Visits.doneWith (visits : Visits host engine list ending later after seen)
    (leaving : ending.leaves)
    : list.DoneWith { ending, list := later, engine := after, trace := seen.toArray } := by
  cases visits with
  | skips completed => exact .inl ⟨rfl, completed, rfl, rfl⟩
  | misses waiting => exact .inr (.inr ⟨.inl rfl, waiting, waiting⟩)
  | runs waiting _ ran =>
      have completed := Execution.Runs.completed_iff ran rfl
      rcases Execution.Runs.ending ran with rfl | rfl | rfl
      · cases leaving
      · exact .inr (.inl ⟨rfl, waiting, completed.mpr rfl⟩)
      · exact .inr (.inr ⟨.inr rfl, waiting, fun done => nomatch completed.mp done⟩)

/-- The lists in front leave the queue in turn, and the drain comes to its end with those that are
left. What is seen on the way is what is seen of each list, one list after the other; by induction
on the times at the front.
-/
theorem Drains.inTurn (drains : Drains host queue engine answer final seen)
    : ∃ gone left visits before closing,
        queue = gone ++ left
        ∧ InTurn host engine gone visits before
        ∧ List.Forall₂ DisplayList.DoneWith gone visits
        ∧ Closes host before left answer final closing
        ∧ ∀ {α : Type} (view : Occurrence → Option α),
            (∀ notice, view (.notice notice) = none)
            → seen.filterMap view
              = (visits ++ closing).flatMap fun visit => visit.trace.toList.filterMap view := by
  induction drains with
  | empty engine =>
      exact ⟨[], [], [], engine, [], rfl, .nobody engine, .nil, .empties, fun _ _ => rfl⟩
  | @leaves list _ _ _ _ _ _ _ _ _ visits leaving _ ih =>
      obtain ⟨gone, left, others, before, closing, rfl, inTurn, done, closes, shown⟩ := ih
      refine ⟨list :: gone, left, _ :: others, before, closing, rfl, .next visits.alone inTurn,
        .cons (visits.doneWith leaving) done, closes, fun view blind => ?_⟩
      rw [List.filterMap_cons_none (blind _), List.filterMap_append, shown view blind]
      rfl
  | @stays list _ rest engine _ _ visits =>
      refine ⟨[], list :: rest, [], engine, _, rfl, .nobody engine, .nil,
        .stays rest visits.alone rfl, fun view blind => ?_⟩
      rw [List.filterMap_cons_none (blind _)]
      simp

/-- What is seen of a drain is what is seen of each list at the front. -/
theorem shows_of_views {α : Type} {outcome : Outcome α} {seen : List Occurrence}
    {visits : List Visit} (traced : outcome.trace = (#[] : Trace) ++ seen)
    (shown : ∀ {β : Type} (view : Occurrence → Option β),
      (∀ notice, view (.notice notice) = none)
      → seen.filterMap view = visits.flatMap fun visit => visit.trace.toList.filterMap view)
    : outcome.Shows visits := by
  rw [Trace.append_eq_append_toArray, Array.empty_append] at traced
  constructor
  · rw [traced, Trace.fetches_toArray, shown _ fun _ => rfl]
    simp only [Trace.fetches, Array.toList_filterMap]
  · rw [traced, Trace.events_toArray, shown _ fun _ => rfl]
    simp only [Trace.events, Array.toList_filterMap]
  · rw [traced, Trace.raised_toArray, shown _ fun _ => rfl]
    simp only [Trace.raised, Array.toList_filterMap]
  · rw [traced, Trace.delivered, Array.toList_filterMap, List.toList_toArray, shown _ fun _ => rfl]
    simp only [Trace.delivered, Array.toList_filterMap]

/-- A drain gives lists their time at the front in the order of the queue, each of them once. Those
in front are done with and leave the queue, one by one by their numbers. If none is left the queue
is empty and there is no current list; otherwise the next list stalls, stays in front as the current
one with all that was settled before it ran, and the lists behind it are left as they are.
-/
theorem drain_in_order {outcome : Outcome Bool} (drained : engine.drain host = some outcome)
    : ∃ gone left visits before,
        engine.queue = gone ++ left
        ∧ InTurn host (engine.takeUp host.ticks) gone visits before
        ∧ List.Forall₂ DisplayList.DoneWith gone visits
        ∧ (Queue.ids gone).foldl Queue.remove engine.queue = left
        ∧ ((left = [] ∧ outcome.answer = true ∧ outcome.engine.queue = []
              ∧ outcome.engine.current = none ∧ outcome.Shows visits)
          ∨ ∃ list rest stalling,
              left = list :: rest
              ∧ before.visit host list #[] = some stalling
              ∧ outcome.answer = false
              ∧ outcome.engine.queue = stalling.list :: rest
              ∧ outcome.engine.current = some stalling.list.id
              ∧ list.Continues stalling.list
              ∧ stalling.list.state = .running
              ∧ stalling.list.pc = stalling.list.stall
              ∧ outcome.Shows (visits ++ [stalling])) := by
  obtain ⟨final, seen, drains, settled, traced⟩ := drainInto_eq_some_iff.mp drained
  obtain ⟨gone, left, visits, before, closing, same, inTurn, done, closes, shown⟩ := drains.inTurn
  have shows := shows_of_views traced shown
  refine ⟨gone, left, visits, before, same, inTurn, done, by rw [same, Queue.foldl_remove], ?_⟩
  -- `Closes` says the answer in its index, so the answer has to be a variable to split on it.
  generalize outcome.answer = answer at closes
  cases closes with
  | empties =>
      rw [List.append_nil] at shows
      exact .inl ⟨rfl, rfl, by rw [settled]; rfl, by rw [settled]; rfl, shows⟩
  | stays rest visited stalled =>
      obtain ⟨_, stalls, -⟩ := visit_eq_some_iff.mp visited
      rw [stalled] at stalls
      have standing := by simpa [DisplayList.isStalled] using stalls.stalled.1
      refine .inr ⟨_, rest, _, rfl, visited, rfl, by rw [settled]; rfl, ?_, stalls.continues,
        stalls.stalled.2, standing, shows⟩
      rw [settled, stalls.continues.id]
      exact stalls.settings.2.2

/-- A queue of four lists: one that finishes, one that stands where no memory is, one that waits
behind its first word, and one that has the number of the first.
-/
def linedUp : Engine :=
  { initial {} with
    queue :=
      [.fresh 1 0x00010000 0 3, .fresh 2 0 8 (-1), .fresh 3 0x00010008 0x0001000C (-1),
        .fresh 1 0x00010000 0 (-1)]
    nextId := 4 }

/-- The first two lists leave, the third one stalls, and the last one is left as it is. -/
theorem drain_in_order_linedUp
    : ∃ outcome gone list visits stalling,
        linedUp.drain (hostWith [0x0F00BEEF, 0x0C000000]) = some outcome
        ∧ linedUp.queue = gone ++ [list, .fresh 1 0x00010000 0 (-1)]
        ∧ List.Forall₂ DisplayList.DoneWith gone visits
        ∧ visits.length = 2
        ∧ outcome.answer = false
        ∧ outcome.engine.queue = [stalling.list, .fresh 1 0x00010000 0 (-1)]
        ∧ list.Continues stalling.list
        ∧ outcome.engine.current = some 3
        ∧ outcome.trace.fetches
          = [(0x00010000, 0x0F00BEEF), (0x00010004, 0x0C000000), (0x00010008, 0)]
        ∧ outcome.Shows (visits ++ [stalling]) := by
  have known : (linedUp.drain (hostWith [0x0F00BEEF, 0x0C000000])).map (fun outcome =>
      (outcome.engine.queue.tail, outcome.engine.current, outcome.trace.fetches))
      = some ([.fresh 1 0x00010000 0 (-1)], some 3,
        [(0x00010000, 0x0F00BEEF), (0x00010004, 0x0C000000), (0x00010008, 0)]) := by
    decide +kernel
  obtain ⟨outcome, drained, shown⟩ := Option.map_eq_some_iff.mp known
  simp only [Prod.mk.injEq] at shown
  obtain ⟨behind, current, fetches⟩ := shown
  obtain ⟨gone, left, visits, before, queue, -, done, -, ends⟩ := drain_in_order drained
  rcases ends with ⟨-, -, empty, -⟩ | ⟨list, rest, stalling, rfl, -, answer, front, -, stalls⟩
  · rw [empty] at behind
    cases behind
  · rw [front] at behind
    cases behind
    have lengths := congrArg List.length queue
    rw [List.length_append, done.length_eq] at lengths
    have two : visits.length = 2 := Nat.add_right_cancel lengths.symm
    obtain ⟨continues, -, -, shows⟩ := stalls
    exact ⟨outcome, gone, list, visits, stalling, drained, queue, done, two, answer, front,
      continues, current, fetches, shows⟩

end Engine

end GraphicsEngine
