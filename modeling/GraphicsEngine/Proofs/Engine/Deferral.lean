import GraphicsEngine.Proofs.Engine.Balance
import GraphicsEngine.Proofs.Engine.Piecewise
import Mathlib.Data.List.Iterate

/-! Lists that join an empty queue one after the other, each of them run at once, do the same as
lists that join behind one that waits at its first command, and are all run when that one is let go
on: what a list finds in the registers does not depend on what was there before it.
-/

namespace GraphicsEngine

-----------------------------------------------------------------------------------------
-- Lists that are to join
-----------------------------------------------------------------------------------------

/-- A list that is to join the queue. -/
structure Joining where
  list : Address
  stall : Address
  channel : Int32
deriving DecidableEq, Repr

namespace Joining

/-- The request for the list to join behind all others. -/
def behind (joining : Joining)
    : Operation :=
  .enqueue joining.list joining.stall joining.channel false

/-- The list with the number that it gets. -/
def fresh (joining : Joining) (id : ListId)
    : DisplayList :=
  .fresh id joining.list joining.stall joining.channel

/-- The lists in the order in which they join, numbered from a given number on. -/
def line (id : ListId)
    : List Joining → Queue
  | [] => []
  | joining :: rest => joining.fresh id :: line (Engine.followingId id) rest

end Joining

/-- Some lists and the same lists waiting elsewhere. -/
def Queue.Elsewhere (queue other : Queue)
    : Prop :=
  List.Forall₂ (fun list moved => ∃ stall, moved = { list with stall }) queue other

namespace Engine

-----------------------------------------------------------------------------------------
-- Numbers
-----------------------------------------------------------------------------------------

variable {host : Host} {engine other after final : Engine} {list later moved : DisplayList}
  {queue : Queue} {ending : Ending} {seen : List Occurrence} {count : Nat}
  {outcome : Outcome Answer}

-----------------------------------------------------------------------------------------
-- Each list by itself
-----------------------------------------------------------------------------------------

/-- A list that joins an empty queue and leaves it empty has had its time at the front. -/
theorem visits_of_enqueue {list stall : Address} {channel : Int32} {head : Bool}
    (empty : engine.queue = [])
    (performed : (Operation.enqueue list stall channel head).perform host engine = some outcome)
    (ended : outcome.engine.queue = [])
    : ∃ ending later after seen,
        Visits host ((engine.join list stall channel head).takeUp host.ticks)
          (.fresh engine.nextId list stall channel) ending later after seen
        ∧ ending ≠ .stalled
        ∧ outcome.engine = settle { after with queue := [], current := none }
        ∧ Occurrence.effects outcome.trace.toList = Occurrence.effects seen := by
  rw [Operation.Readies.perform (.enqueue list stall channel head)] at performed
  obtain ⟨drained, ran, rfl⟩ := Option.map_eq_some_iff.mp performed
  obtain ⟨final, seen, drains, settled, traced⟩ := drainInto_eq_some_iff.mp ran
  have alone : (engine.join list stall channel head).queue
      = [.fresh engine.nextId list stall channel] := by
    simp only [join, empty]
    split <;> rfl
  rw [alone] at drains
  generalize drained.answer = answer at drains
  cases drains with
  | leaves visits leaving drains =>
      cases drains with
      | empty =>
          refine ⟨_, _, _, _, visits, (Ending.leaves_iff _).mp leaving, settled, ?_⟩
          simp [Operation.answerWith, traced]
  | stays visits =>
      have left : drained.engine.queue = [] := ended
      rw [settled] at left
      cases left

-----------------------------------------------------------------------------------------
-- One list after the other
-----------------------------------------------------------------------------------------

/-- The other engine has done what the engine has, and made lists wait so many times more. Which
lists are in their queues does not matter, nor which numbers come next.
-/
structure Paces (count : Nat) (engine other : Engine)
    : Prop where
  config : other.config = engine.config
  cache : other.cache = engine.cache
  interrupts : other.interrupts = engine.interrupts
  stats : (Oversight.stops count).counted engine.stats other.stats

/-- Nothing but stops and cycles is counted differently. -/
theorem Paces.stats_eq (paces : engine.Paces count other)
    : other.stats = { engine.stats with
        stalls := engine.stats.stalls + count, totalCycles := other.stats.totalCycles } :=
  paces.stats

/-- It does not matter when the cycles of a drain are added to those of all times. -/
theorem Paces.settle (paces : engine.Paces count other)
    : engine.Paces count other.settle := by
  have settled : other.settle.stats = { engine.stats with
      stalls := engine.stats.stalls + count, totalCycles := other.settle.stats.totalCycles } :=
    congrArg (fun stats : Stats => { stats with totalCycles := other.settle.stats.totalCycles })
      paces.stats_eq
  exact { paces with stats := settled }

/-- An engine at any time between lists paces one that is about to run the next one. -/
theorem Paces.launch (paces : engine.Paces count other) (list : DisplayList) (stall : Address)
    : ((engine.present list).launch list).Alike (.stops count)
        ((other.present { list with stall }).launch { list with stall }) where
  list := rfl
  registers := ⟨rfl, rfl⟩
  cache := paces.cache
  interrupts := paces.interrupts
  stats := by
    simp only [Engine.launch, Engine.present]
    split
    · simp only [← add_started]
      exact (Oversight.stops count).add _ paces.stats
    · exact paces.stats

/-- A list that runs alike goes to its end alike, unless it stalls since it waits elsewhere. -/
theorem paces_of_runs {last : Execution} (unfinished : moved.state ≠ .completed)
    (mapped : host.memory.isMapped moved.pc) (config : other.config = engine.config)
    (alike : ((engine.present list).launch list).Alike (.stops count)
      ((other.present moved).launch moved))
    (ran : Execution.Runs host.memory engine.config.traceCommands host.fuel
      ((engine.present list).launch list) ending last seen)
    (through : ending ≠ .stalled)
    : (∃ later after happened,
        Visits host other moved ending later after happened
        ∧ (((engine.present list).land last).count ending).Paces count after
        ∧ Occurrence.effects happened = Occurrence.effects seen)
      ∨ (moved.stall ≠ list.stall
        ∧ ∃ later after happened, Visits host other moved .stalled later after happened) := by
  rcases ran.alike_or_stalls through alike with same | ⟨elsewhere, stop, happened, stalls⟩
  · obtain ⟨stop, happened, runs, alike, effects⟩ := same
    rw [← config] at runs
    have visits := Visits.runs unfinished mapped runs
    rw [if_neg through] at visits
    refine .inl ⟨_, _, _, visits, ?_, effects⟩
    exact {
      config := config
      cache := alike.cache
      interrupts := alike.interrupts
      stats := by
        rw [Engine.count, Engine.count, count_eq_add, count_eq_add (land _ _).stats]
        exact (Oversight.stops count).add _ alike.stats }
  · rw [← config] at stalls
    exact .inr ⟨elsewhere, _, _, _, .stalls unfinished mapped stalls⟩

/-- A list spends its time at the front of a pacing engine alike, unless it stalls there since it
waits elsewhere.
-/
theorem Visits.paces (visits : Visits host engine list ending later after seen)
    (through : ending ≠ .stalled) (paces : engine.Paces count other) (stall : Address)
    : (∃ ending' later' after' happened,
        Visits host other { list with stall } ending' later' after' happened
        ∧ ending'.leaves
        ∧ after.Paces count after'
        ∧ Occurrence.effects happened = Occurrence.effects seen)
      ∨ (stall ≠ list.stall
        ∧ ∃ later' after' happened,
          Visits host other { list with stall } .stalled later' after' happened) := by
  cases visits with
  | skips completed =>
      exact .inl ⟨_, _, _, _, .skips completed, rfl, { paces with }, rfl⟩
  | misses unfinished unmapped =>
      refine .inl ⟨_, _, _, _, .misses unfinished unmapped, rfl, ?_, rfl⟩
      exact { paces with
        stats := by
          rw [Engine.count, Engine.count, count_eq_add, count_eq_add (present _ _).stats]
          exact (Oversight.stops count).add _ paces.stats }
  | runs unfinished mapped ran =>
      have waiting : DisplayList.state { list with stall } ≠ .completed := unfinished
      rcases paces_of_runs waiting mapped paces.config (paces.launch list stall) ran through with
        same | stalls
      · obtain ⟨later', after', happened, visits, paces, effects⟩ := same
        rw [if_neg through]
        exact .inl ⟨_, _, _, _, visits, (Ending.leaves_iff _).mpr through, paces, effects⟩
      · exact .inr stalls

/-- The machines are the same, whatever their clocks show. -/
def SameMachine (host : Host) (request : Request)
    : Prop :=
  request.host.memory = host.memory ∧ request.host.fuel = host.fuel

theorem SameMachine.retimed {request : Request} (same : SameMachine host request)
    : { request.host with ticks := host.ticks } = host := by
  cases host with
  | mk memory ticks fuel => exact congrArg₂ (Host.mk · ticks ·) same.1 same.2

/-- Lists that have been run one by one are run in one drain by a pacing engine, unless one of them
stalls there since it waits elsewhere; by induction on the lists.
-/
theorem Paces.drains {lists : List Joining} {requests : List Request} {episodes : List Episode}
    (paces : engine.Paces count other)
    (series : requests.map (·.operation) = lists.map Joining.behind)
    (machine : ∀ request ∈ requests, SameMachine host request)
    (performed : engine.performAll requests = some episodes) (empty : engine.queue = [])
    (ended : ∀ episode ∈ episodes, episode.outcome.engine.queue = [])
    (elsewhere : (Joining.line engine.nextId lists).Elsewhere queue)
    : ∃ answer final seen,
        Drains host queue other answer final seen
        ∧ (queue = Joining.line engine.nextId lists → answer = true)
        ∧ (answer = true
          → (engine.after episodes).Paces count final
            ∧ Occurrence.effects seen = Occurrence.effects (showing episodes).toList) := by
  induction lists generalizing engine other requests episodes queue with
  | nil =>
      obtain rfl := List.map_eq_nil_iff.mp series
      cases performed
      cases elsewhere
      exact ⟨true, _, _, .empty other, fun _ => rfl, fun _ => ⟨{ paces with }, rfl⟩⟩
  | cons joining lists ih =>
      obtain ⟨⟨first, _⟩, rest, rfl, rfl, others⟩ := List.map_eq_cons_iff.mp series
      obtain ⟨outcome, episodes, joins, later, rfl⟩ := performAll_cons_eq_some_iff.mp performed
      obtain ⟨_, behind, ⟨stall, rfl⟩, apart, rfl⟩ := List.forall₂_cons_left_iff.mp elsewhere
      rw [List.forall_mem_cons] at machine ended
      obtain ⟨ending, left, after, seen, visits, through, settled, effects⟩ :=
        visits_of_enqueue empty joins ended.1
      have visits := visits.retimed host.ticks
      rw [machine.1.retimed] at visits
      have next : outcome.engine.nextId = followingId engine.nextId :=
        (congrArg Engine.nextId settled).trans visits.settings.2.1
      rw [← next] at apart
      have joined : Engine.Paces count
          ((engine.join joining.list joining.stall joining.channel false).takeUp first.ticks)
          other := { paces with }
      rcases visits.paces through joined stall with same | stalls
      · obtain ⟨ending', left', after', happened, visits', leaving, paces', effects'⟩ := same
        have settles : outcome.engine.Paces count after' := by
          rw [settled]
          exact { paces' with }
        obtain ⟨answer, final, more, drains, whole, paced⟩ :=
          ih settles others machine.2 later ended.1 ended.2 apart
        refine ⟨answer, final, _, .leaves visits' leaving drains, fun same => whole ?_,
          fun through => ?_⟩
        · rw [next]
          exact (List.cons.inj same).2
        · obtain ⟨paces, same⟩ := paced through
          refine ⟨paces, ?_⟩
          simp only [Occurrence.effects_notice, Occurrence.effects_append, effects', same,
            ← effects, effects_showing, List.flatMap_cons]
      · obtain ⟨elsewhere', left', after', happened, stalls⟩ := stalls
        refine ⟨false, _, _, .stays stalls, fun same => ?_, nofun⟩
        exact absurd (congrArg DisplayList.stall (List.cons.inj same).1) elsewhere'

-----------------------------------------------------------------------------------------
-- All lists at once
-----------------------------------------------------------------------------------------

/-- The engine has done nothing more than to start a list and to find it waiting so many times. -/
structure Parked (origin : Engine) (count : Nat) (engine : Engine)
    : Prop where
  config : engine.config = origin.config
  cache : engine.cache = origin.cache
  interrupts : engine.interrupts = origin.interrupts
  stats
    : engine.stats = { origin.stats with
        started := origin.stats.started + 1
        stalls := origin.stats.stalls + count }

/-- A list that joins behind a parked one waits there. -/
theorem Parked.join {origin : Engine} {rest : Queue} (parked : Parked origin count engine)
    (front : engine.queue = list :: rest) (running : list.state = .running)
    (stalled : list.isStalled) (mapped : host.memory.isMapped list.pc) (fueled : 0 < host.fuel)
    (joining : Joining)
    : ∃ outcome,
        joining.behind.perform host engine = some outcome
        ∧ outcome.engine.queue = list :: (rest ++ [joining.fresh engine.nextId])
        ∧ Parked origin (count + 1) outcome.engine
        ∧ outcome.engine.nextId = followingId engine.nextId
        ∧ Occurrence.effects outcome.trace.toList = [] := by
  let ready := engine.join joining.list joining.stall joining.channel false
  have front : ready.queue = list :: (rest ++ [joining.fresh engine.nextId]) := by
    simp [ready, Engine.join, front, Queue.pushBack, Joining.fresh]
  have counted : { ready.stats with stalls := ready.stats.stalls + 1 }
      = { origin.stats with
          started := origin.stats.started + 1
          stalls := origin.stats.stalls + (count + 1) } := by
    rw [show ready.stats = engine.stats from rfl, parked.stats, ← Nat.add_assoc]
  rw [Joining.behind, Operation.Readies.perform (.enqueue ..),
    drainInto_of_waits front running stalled mapped fueled]
  exact ⟨_, rfl, front, ⟨parked.config, parked.cache, parked.interrupts, counted⟩, rfl,
    by simp [Operation.answerWith]⟩

/-- A list that has run at a mapped address has taken a turn at least. -/
theorem Visits.fueled (visits : Visits host engine list ending later after seen)
    (waiting : list.state ≠ .completed) (mapped : host.memory.isMapped list.pc)
    : 0 < host.fuel := by
  cases visits with
  | skips completed => exact absurd completed waiting
  | misses _ unmapped => exact absurd mapped unmapped
  | runs _ _ ran =>
      obtain ⟨_, _, _, _, -, -, fueled, -⟩ := ran
      exact Nat.zero_lt_of_lt fueled

end Engine

end GraphicsEngine
