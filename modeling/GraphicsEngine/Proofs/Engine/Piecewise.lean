import GraphicsEngine.Proofs.Engine.Cycles
import GraphicsEngine.Proofs.Engine.Likeness
import GraphicsEngine.Proofs.Engine.Waiting
import GraphicsEngine.Proofs.Execution.Ways
import Mathlib.Data.List.Chain

/-! A list that is made to wait on its way does the same as one that runs through, also if memory is
written only as far as the list has come.
-/

namespace GraphicsEngine

/-- What a stop wipes out is overlooked, and how often the list has been made to wait. -/
def Oversight.stops (count : Nat)
    : Oversight where
  between _ _ := True
  during registers others :=
    others.offset = registers.offset
    ∧ Word.announcement? others.previous = Word.announcement? registers.previous
  counted stats counts :=
    counts = { stats with stalls := stats.stalls + count, totalCycles := counts.totalCycles }
  offset same := same.1
  announcement same := same.2
  charge _ _ same := same
  setOffset _ same := ⟨rfl, same.2⟩
  setPrevious _ same := ⟨same.1, rfl⟩
  finish same := same
  add growth same := by
    rw [same]
    simp [Stats.add, Nat.add_right_comm]
  refl _ := trivial
  takeUp _ _ := trivial
  present _ := trivial
  launch _ _ := ⟨rfl, rfl⟩
  land _ := trivial
  settle _ same := by
    rw [same]
    simp [Stats.add]

namespace Engine

/-- The first loop head of a list when the queue is run next. -/
def entry (engine : Engine) (ticks : UInt64) (list : DisplayList)
    : Execution :=
  ((engine.takeUp ticks).present list).launch list

/-- The list at the front of the engine, whenever it is run next and wherever it then waits, goes
on as an execution does that has not been made to wait so many times.
-/
structure Resumes (count : Nat) (engine : Engine) (list : DisplayList) (rest : Queue)
    (execution : Execution)
    : Prop where
  queue : engine.queue = list :: rest
  waiting : list.state ≠ .completed
  started : count ≠ 0 → list.state = .running
  pc : list.pc = execution.list.pc
  alike (ticks : UInt64) (stall : Address)
    : execution.Alike (.stops count) (engine.entry ticks { list with stall })

variable {memory : Memory} {count : Nat} {engine : Engine} {list : DisplayList} {rest : Queue}
  {first middle last : Execution} {heads : List Execution} {stop : Stop} {stops : List Stop}
  {seen : List Occurrence}

/-- The list at the front that alone has its number waits at another address from now on, and no
other list does.
-/
theorem moveStall_front (alone : list.id ∉ Queue.ids rest) {stall : Address}
    (masked : stall.IsMasked)
    : Queue.moveStall (list :: rest) list.id stall = { list with stall } :: rest := by
  have others : Queue.moveStall rest list.id stall = rest := Queue.moveStall_of_notMem alone stall
  have front : list.withStall stall = { list with stall } := by
    rw [DisplayList.withStall, masked]
  simp only [Queue.moveStall] at others
  simp only [Queue.moveStall, List.map_cons, beq_self_eq_true, if_true, front, others]

/-- Where the list waits next does not matter to how it goes on. -/
theorem Resumes.moved (resumes : Resumes count engine list rest first) (stall : Address)
    : Resumes count { engine with queue := { list with stall } :: rest } { list with stall } rest
        first where
  queue := rfl
  waiting := resumes.waiting
  started := resumes.started
  pc := resumes.pc
  alike := resumes.alike

/-- Where a run is made to wait, an execution goes on from there: nothing else is in force. -/
theorem resumes_of_stopped {ready : Engine} {reached : Execution}
    (alike : middle.Alike (.stops count) reached) (running : reached.list.state = .running)
    (offset : middle.registers.offset = 0)
    (unannounced : Word.announcement? middle.registers.previous = none)
    : Resumes (count + 1)
        (settle { ((ready.present list).land reached.charge).count .stalled with
          queue := reached.list :: rest })
        reached.list rest middle where
  queue := rfl
  waiting := by simp [running]
  started _ := running
  pc := alike.pc
  alike ticks stall := by
    have state : middle.list.state = .running := by
      rw [← running, alike.list]
    have counted : reached.stats = { middle.stats with
        stalls := middle.stats.stalls + count, totalCycles := reached.stats.totalCycles } :=
      alike.stats
    refine {
      list := ?_
      registers := ⟨offset.symm, unannounced.symm ▸ Word.announcement?_zero⟩
      cache := alike.cache
      interrupts := alike.interrupts
      stats := ?_ }
    · simp only [entry, launch]
      rw [alike.list, ← state]
    · simp only [Oversight.stops, entry, launch, running, present, takeUp, settle, Engine.count,
        land, Execution.charge, Stats.count, reduceCtorEq, if_false]
      rw [counted]
      rfl

/-- A list comes to a stop as it comes there without being made to wait, and goes on from there. -/
theorem Resumes.comes (resumes : Resumes count engine list rest first)
    (alone : list.id ∉ Queue.ids rest) (mapped : memory.isMapped first.list.pc)
    (masked : first.list.pc.IsMasked)
    (passage : Execution.Passage memory engine.config.traceCommands first heads seen middle)
    (before : ∀ head ∈ heads, head.list.pc ≠ stop.address)
    (reached : middle.list.pc = stop.address) (offset : middle.registers.offset = 0)
    (unannounced : Word.announcement? middle.registers.previous = none)
    (regions : stop.host.memory.regions = memory.regions)
    (words : ∀ head ∈ heads,
      stop.host.memory.readWord head.list.pc = memory.readWord head.list.pc)
    (fueled : heads.length < stop.host.fuel)
    : ∃ outcome later,
        (Operation.moveStall list.id stop.address).perform stop.host engine = some outcome
        ∧ Resumes (count + 1) outcome.engine later rest middle
        ∧ later.id = list.id
        ∧ outcome.engine.config = engine.config
        ∧ outcome.engine.nextId = engine.nextId
        ∧ Occurrence.effects outcome.trace.toList = Occurrence.effects seen := by
  have stall : stop.address.IsMasked := reached ▸ passage.isMasked masked
  let moved := { list with stall := stop.address }
  let ready := { engine with queue := moved :: rest }
  let launched := ready.entry stop.host.ticks moved
  have alike : first.Alike (.stops count) launched := resumes.alike stop.host.ticks stop.address
  -- The list goes to the stop as it goes in the whole memory, and there it is found to wait.
  obtain ⟨others, arrived, happened, passage', length, alike, effects⟩ :=
    passage.alike alike (Memory.isMapped_of_regions regions) words before
  have waits : arrived.list.isStalled := by
    have waiting : arrived.list.stall = stop.address := passage'.continues.stall
    simp [DisplayList.isStalled, alike.pc, reached, waiting]
  have stopped : arrived.step stop.host.memory engine.config.traceCommands
      = .ended .stalled arrived.charge [] := by
    rw [Execution.step, if_pos waits]
  have ran : Execution.Runs stop.host.memory engine.config.traceCommands stop.host.fuel launched
      .stalled arrived.charge happened :=
    ⟨others, arrived, happened, [], passage', stopped, length ▸ fueled, by simp⟩
  have mapped' : stop.host.memory.isMapped moved.pc := by
    rw [Memory.isMapped_of_regions regions, show moved.pc = first.list.pc from resumes.pc]
    exact mapped
  have drains : Drains stop.host ready.queue (ready.takeUp stop.host.ticks) false _ _ :=
    .stays (.stalls resumes.waiting mapped' ran)
  have performed : (Operation.moveStall list.id stop.address).perform stop.host engine = _ :=
    Operation.Readies.perform (.moveStall list.id stop.address)
  rw [resumes.queue, moveStall_front alone stall, drains.drainInto] at performed
  refine ⟨_, _, performed, resumes_of_stopped alike ?_ offset unannounced, ?_, rfl, rfl, ?_⟩
  · exact passage'.state
  · exact passage'.continues.id
  · simp [Operation.answerWith, effects]

/-- The list at the front goes on as it does when the queue is run next. -/
theorem resumes_of_front (front : engine.queue = list :: rest) (waiting : list.state ≠ .completed)
    (ticks : UInt64)
    : Resumes 0 engine list rest (engine.entry ticks list) where
  queue := front
  waiting := waiting
  started none := absurd rfl none
  pc := rfl
  alike _ _ := ⟨rfl, ⟨rfl, rfl⟩, rfl, rfl, rfl⟩

/-- The requests to make a list wait at one stop after the other. -/
def moves (id : ListId) (stops : List Stop)
    : List Request :=
  stops.map fun stop => ⟨stop.host, .moveStall id stop.address⟩

/-- Every request to make a list wait runs the queue. -/
theorem moves_ready (id : ListId) (stops : List Stop)
    : ∀ request ∈ moves id stops, ∀ engine,
        ∃ ready before answer, request.operation.Readies engine ready before answer := by
  intro request member engine
  obtain ⟨stop, -, rfl⟩ := List.mem_map.mp member
  exact ⟨_, _, _, .moveStall id stop.address⟩

/-- A list goes its way over stops as it goes without being made to wait, stop by stop. -/
theorem Resumes.goes {standing : Bool}
    (way : Execution.Way memory engine.config.traceCommands standing first stops last seen)
    (resumes : Resumes count engine list rest first) (alone : list.id ∉ Queue.ids rest)
    (mapped : memory.isMapped first.list.pc ∨ stops = []) (masked : first.list.pc.IsMasked)
    (apart : standing → ∀ stop ∈ stops.head?, first.list.pc ≠ stop.address)
    (distinct : (stops.map (·.address)).IsChain (· ≠ ·))
    : ∃ episodes later,
        engine.performAll (moves list.id stops) = some episodes
        ∧ Resumes (count + stops.length) (engine.after episodes) later rest last
        ∧ later.id = list.id
        ∧ (engine.after episodes).config = engine.config
        ∧ (engine.after episodes).nextId = engine.nextId
        ∧ episodes.flatMap (Occurrence.effects ·.outcome.trace.toList)
          = Occurrence.effects seen := by
  generalize same : engine.config.traceCommands = traceCommands at way
  induction way generalizing engine list count with
  | there => exact ⟨[], list, rfl, resumes, rfl, rfl, rfl, rfl⟩
  | @stop _ first middle _ heads stop stops _ _ passage _ before reached _ offset unannounced
      regions words fueled way ih =>
      have mapped : memory.isMapped first.list.pc := by simpa using mapped
      obtain ⟨outcome, later, performed, resumes, id, config, nextId, effects⟩ :=
        resumes.comes alone mapped masked (same ▸ passage)
          (passage.before (fun standing => apart standing stop rfl) before) reached offset
          unannounced regions words fueled
      rw [List.map_cons, List.isChain_cons] at distinct
      -- The list stands at this stop now, which is not where the next one is.
      have apart' : ∀ next ∈ stops.head?, middle.list.pc ≠ next.address := by
        intro next member
        rw [reached]
        exact distinct.1 next.address (by simp [Option.mem_def.mp member])
      have mapped' : memory.isMapped middle.list.pc ∨ stops = [] := by
        by_cases more : stops = []
        · exact .inr more
        · exact .inl (way.isMapped more)
      obtain ⟨episodes, final, series, resumes, id', config', nextId', effects'⟩ :=
        ih resumes (id ▸ alone) mapped' (passage.isMasked masked) (fun _ => apart') distinct.2
          ((congrArg Config.traceCommands config).trans same)
      refine ⟨_, final, performAll_cons_eq_some_iff.mpr ⟨outcome, episodes, performed, ?_, rfl⟩,
        ?_, id'.trans id, config'.trans config, nextId'.trans nextId, ?_⟩
      · rw [← id]
        exact series
      · rw [List.length_cons, Nat.add_comm stops.length, ← Nat.add_assoc]
        exact resumes
      · rw [List.flatMap_cons, effects, effects', Occurrence.effects_append]

variable {host : Host} {front : Engine} {ending : Ending} {halted : Execution}

/-- A list that can go on from its last stop does so as it goes on without being made to wait. -/
theorem Resumes.runs (resumes : Resumes count engine list rest last)
    (mapped : host.memory.isMapped last.list.pc) (stall : list.stall = last.list.stall)
    (ran : Execution.Runs host.memory engine.config.traceCommands host.fuel last ending halted seen)
    (config : front.config = engine.config) (current : front.current = some list.id)
    (nextId : front.nextId = engine.nextId)
    : ∃ after happened,
        Visits host (engine.takeUp host.ticks) list ending halted.list after happened
        ∧ ((front.land halted).count ending).Alike (.stops count) after
        ∧ Occurrence.effects happened = Occurrence.effects seen := by
  obtain ⟨stop, happened, ran, executed, same, effects⟩ :=
    ran.alike (resumes.alike host.ticks list.stall) stall
  have standing : host.memory.isMapped list.pc := resumes.pc ▸ mapped
  have landed : (front.land halted).Alike (.stops count)
      (((engine.takeUp host.ticks).present list).land stop) := by
    refine land_alike ?_ ?_ ?_ executed
    · exact config.symm
    · exact current.symm
    · exact nextId.symm
  rw [← same]
  refine ⟨_, _, .runs resumes.waiting standing ran, landed.count ending, ?_⟩
  split
  · simp [effects]
  · exact effects

/-- A list that was made to wait where no memory is does not come to the front anew. Without being
made to wait it finds no command there, and is counted as aborted just so.
-/
theorem Resumes.misses (resumes : Resumes count engine list rest last) (stopped : count ≠ 0)
    (unmapped : ¬host.memory.isMapped last.list.pc) (free : ¬last.list.isStalled)
    (ran : Execution.Runs host.memory engine.config.traceCommands host.fuel last ending halted seen)
    (config : front.config = engine.config) (current : front.current = some list.id)
    (nextId : front.nextId = engine.nextId)
    : ending = .aborted ∧ ∃ after happened,
        Visits host (engine.takeUp host.ticks) list .unmapped list after happened
        ∧ ((front.land halted).count ending).Alike (.stops count) after
        ∧ Occurrence.effects happened = Occurrence.effects seen := by
  have alike := resumes.alike host.ticks list.stall
  have missing : ¬host.memory.isMapped list.pc := resumes.pc ▸ unmapped
  obtain ⟨heads, head, early, late, passage, ended, -, rfl⟩ := ran
  cases passage with
  | turn stepped =>
      have read := (Execution.Passage.turn stepped (.here _)).isMapped (by simp)
      exact absurd read unmapped
  | here =>
      cases Execution.turn_of_step ended with
      | stalls stalled => exact absurd stalled free
      | ends _ _ fetched => exact absurd (Memory.of_readWord fetched).1 unmapped
      | fails _ error =>
          refine ⟨rfl, _, _, .misses resumes.waiting missing, ?_, rfl⟩
          have counted := alike.stats
          simp only [entry, launch, resumes.started stopped, reduceCtorEq, if_false] at counted
          exact {
            config := config.symm
            current := current.symm
            nextId := nextId.symm
            cache := alike.cache
            registers := trivial
            interrupts := alike.interrupts
            stats := by
              simp only [Engine.count, land]
              rw [count_eq_add, count_eq_add (present _ _).stats]
              exact (Oversight.stops count).add _ counted }

/-- From its last stop on a list spends its time at the front as it does without being made to
wait.
-/
theorem Resumes.ends (resumes : Resumes count engine list rest last)
    (standing : host.memory.isMapped last.list.pc ∨ count ≠ 0 ∧ ¬last.list.isStalled)
    (stall : list.stall = last.list.stall)
    (ran : Execution.Runs host.memory engine.config.traceCommands host.fuel last ending halted seen)
    (config : front.config = engine.config) (current : front.current = some list.id)
    (nextId : front.nextId = engine.nextId)
    : ∃ ending' later after happened,
        Visits host (engine.takeUp host.ticks) list ending' later after happened
        ∧ ending'.leaves = ending.leaves
        ∧ (ending = .stalled → ending' = .stalled ∧ later = halted.list)
        ∧ ((front.land halted).count ending).Alike (.stops count) after
        ∧ Occurrence.effects happened = Occurrence.effects seen := by
  by_cases mapped : host.memory.isMapped last.list.pc
  · obtain ⟨after, happened, visits, alike, effects⟩ :=
      resumes.runs mapped stall ran config current nextId
    exact ⟨_, _, after, happened, visits, rfl, fun stalled => ⟨stalled, rfl⟩, alike, effects⟩
  · obtain ⟨stopped, free⟩ := standing.resolve_left mapped
    obtain ⟨rfl, after, happened, visits, alike, effects⟩ :=
      resumes.misses stopped mapped free ran config current nextId
    exact ⟨_, _, after, happened, visits, rfl, nofun, alike, effects⟩

/-- When the list at the front may go as far as it was to go, the queue is run from there on as it
is without stops.
-/
theorem Resumes.drains {origin final : Engine} {original : DisplayList} {answer : Bool}
    {shown : List Occurrence} {ticks : UInt64} (resumes : Resumes count engine list rest last)
    (drains : Drains host (original :: rest) (origin.takeUp ticks) answer final shown)
    (waiting : original.state ≠ .completed) (mapped : host.memory.isMapped original.pc)
    (passage : Execution.Passage host.memory origin.config.traceCommands
      (origin.entry ticks original) heads seen last)
    (standing : host.memory.isMapped last.list.pc ∨ count ≠ 0 ∧ ¬last.list.isStalled)
    (config : engine.config = origin.config) (nextId : engine.nextId = origin.nextId)
    (id : list.id = original.id) (stall : list.stall = original.stall)
    : ∃ other happened,
        Drains host (list :: rest) (engine.takeUp host.ticks) answer other happened
        ∧ final.Alike (.stops count) other
        ∧ other.queue = final.queue
        ∧ Occurrence.effects shown = Occurrence.effects seen ++ Occurrence.effects happened := by
  have stall : list.stall = last.list.stall := stall.trans passage.continues.stall.symm
  let front := (origin.takeUp ticks).present original
  have config' : front.config = engine.config := config.symm
  have current : front.current = some list.id := congrArg some id.symm
  have nextId' : front.nextId = engine.nextId := nextId.symm
  rw [← config] at passage
  cases drains with
  | leaves visits leaving drains =>
      cases visits with
      | skips completed => exact absurd completed waiting
      | misses _ unmapped => exact absurd mapped unmapped
      | runs _ _ ran =>
          rw [show (origin.takeUp ticks).config = engine.config from config'] at ran
          obtain ⟨late, behind, rfl⟩ := Execution.Runs.behind passage ran
          obtain ⟨ending, later, after, happened, visits, leaves, -, alike, effects⟩ :=
            resumes.ends standing stall behind config' current nextId'
          obtain ⟨other, more, drains, alike, queue, same⟩ := drains.alike alike
          refine ⟨other, _, .leaves visits (leaves ▸ leaving) drains, alike, queue, ?_⟩
          split <;> simp [effects, same]
  | stays visits =>
      cases visits with
      | runs _ _ ran =>
          rw [show (origin.takeUp ticks).config = engine.config from config'] at ran
          obtain ⟨late, behind, rfl⟩ := Execution.Runs.behind passage ran
          obtain ⟨ending, later, after, happened, visits, -, stays, alike, effects⟩ :=
            resumes.ends standing stall behind config' current nextId'
          obtain ⟨rfl, rfl⟩ := stays rfl
          exact ⟨_, _, .stays visits, { alike with }, rfl, by simp [effects]⟩

/-- The list at the front is let go on to where it was to wait, and the queue is run from there on
as it is without stops.
-/
theorem Resumes.closes {origin : Engine} {original : DisplayList} {whole : Outcome Bool}
    (resumes : Resumes count engine list rest last) (alone : list.id ∉ Queue.ids rest)
    (front : origin.queue = original :: rest) (drained : origin.drain host = some whole)
    (waiting : original.state ≠ .completed) (mapped : host.memory.isMapped original.pc)
    (masked : original.stall.IsMasked)
    (passage : Execution.Passage host.memory origin.config.traceCommands
      (origin.entry host.ticks original) heads seen last)
    (standing : host.memory.isMapped last.list.pc ∨ count ≠ 0 ∧ ¬last.list.isStalled)
    (config : engine.config = origin.config) (nextId : engine.nextId = origin.nextId)
    (id : list.id = original.id) (ticks : UInt64)
    : ∃ outcome,
        (Operation.moveStall list.id original.stall).perform { host with ticks } engine
          = some outcome
        ∧ whole.engine.Alike (.stops count) outcome.engine
        ∧ outcome.engine.queue = whole.engine.queue
        ∧ Occurrence.effects whole.trace.toList
          = Occurrence.effects seen ++ Occurrence.effects outcome.trace.toList := by
  obtain ⟨final, shown, drains, settled, traced⟩ := drainInto_eq_some_iff.mp drained
  rw [front] at drains
  obtain ⟨other, happened, drains, alike, queue, same⟩ :=
    (resumes.moved original.stall).drains (drains.retimed ticks) waiting mapped passage standing
      config nextId id rfl
  have performed : (Operation.moveStall list.id original.stall).perform { host with ticks } engine
      = some ⟨.done, other.settle, (#[] : Trace) ++ happened⟩ := by
    rw [Operation.Readies.perform (.moveStall list.id original.stall), resumes.queue,
      moveStall_front alone masked, drains.drainInto]
    rfl
  rw [settled]
  exact ⟨_, performed, alike.settle, queue, by simp [traced, same]⟩

/-- Another engine that has come as far, but made lists wait so many times more on the way. -/
structure CameAsFar (more : Nat) (engine other : Engine)
    : Prop where
  config : other.config = engine.config
  queue : other.queue = engine.queue
  current : other.current = engine.current
  nextId : other.nextId = engine.nextId
  cache : other.cache = engine.cache
  interrupts : other.interrupts = engine.interrupts
  stats : other.stats = { engine.stats with stalls := engine.stats.stalls + more }

/-- Nothing but stops and cycles is counted differently where only stops are overlooked. -/
theorem Alike.stats_of_stops {more : Nat} {other : Engine}
    (alike : engine.Alike (.stops more) other)
    : other.stats = { engine.stats with
        stalls := engine.stats.stalls + more, totalCycles := other.stats.totalCycles } :=
  alike.stats

/-- Engines between which only stops are overlooked have come as far, if they have counted as many
cycles.
-/
theorem Alike.cameAsFar {more : Nat} {other : Engine} (alike : engine.Alike (.stops more) other)
    (queue : other.queue = engine.queue)
    (cycles : other.stats.totalCycles = engine.stats.totalCycles)
    : engine.CameAsFar more other where
  config := alike.config
  queue := queue
  current := alike.current
  nextId := alike.nextId
  cache := alike.cache
  interrupts := alike.interrupts
  stats := by rw [alike.stats_of_stops, cycles]

/-- A list that is made to wait at stops on its way, and then where it waits anyway, does the same
as one that runs through in a single drain, also where memory holds the commands only as far as
the next stop. All drains together take as many cycles as the single one.
-/
theorem drain_piecewise {whole : Outcome Bool} (front : engine.queue = list :: rest)
    (distinct : (Queue.ids engine.queue).Nodup)
    (masked : ∀ list ∈ engine.queue, list.pc.IsMasked ∧ list.stall.IsMasked)
    (waiting : list.state ≠ .completed) (mapped : host.memory.isMapped list.pc)
    (drained : engine.drain host = some whole)
    (way : Execution.Way host.memory engine.config.traceCommands false
      (engine.entry host.ticks list) stops last seen)
    (apart : (stops.map (·.address)).IsChain (· ≠ ·)) (ticks : UInt64)
    : ∃ episodes,
        engine.performAll (moves list.id (stops ++ [⟨{ host with ticks }, list.stall⟩]))
          = some episodes
        ∧ (showing episodes).fetches = whole.trace.fetches
        ∧ (showing episodes).events = whole.trace.events
        ∧ (showing episodes).raised = whole.trace.raised
        ∧ (showing episodes).delivered = whole.trace.delivered
        ∧ whole.engine.CameAsFar stops.length (engine.after episodes)
        ∧ cyclesOf episodes = whole.engine.registers.cycles := by
  have alone : list.id ∉ Queue.ids rest := by
    rw [front, Queue.ids, List.map_cons, List.nodup_cons] at distinct
    exact distinct.1
  have own := masked list (by simp [front])
  obtain ⟨episodes, later, series, resumes, id, config, nextId, effects⟩ :=
    (resumes_of_front front waiting host.ticks).goes way alone (.inl mapped) own.1 (by simp) apart
  obtain ⟨heads, passage⟩ := way.passage
  have standing : host.memory.isMapped last.list.pc
      ∨ 0 + stops.length ≠ 0 ∧ ¬last.list.isStalled := by
    by_cases more : stops = []
    · subst more
      cases way
      exact .inl mapped
    · exact .inr ⟨by simpa using more, way.free more⟩
  obtain ⟨outcome, performed, alike, queue, same⟩ :=
    resumes.closes (id ▸ alone) front drained waiting mapped own.2 passage standing config nextId id
      ticks
  let closing : Episode := ⟨.moveStall list.id list.stall, engine.after episodes, outcome⟩
  have all : engine.performAll (moves list.id (stops ++ [⟨{ host with ticks }, list.stall⟩]))
      = some (episodes ++ [closing]) := by
    rw [moves, List.map_append]
    exact performAll_append series
      (performAll_cons_eq_some_iff.mpr ⟨outcome, [], id ▸ performed, rfl, rfl⟩)
  have shows : Occurrence.effects (showing (episodes ++ [closing])).toList
      = Occurrence.effects whole.trace.toList := by
    rw [effects_showing, List.flatMap_append, effects, same]
    simp [closing]
  have reached : engine.after (episodes ++ [closing]) = outcome.engine := by
    simp [Engine.after, closing]
  rw [Nat.zero_add] at alike
  -- Both ways count the same commands, and so take the same cycles.
  obtain ⟨count, sum, commands, total⟩ :=
    cycles_of_performAll (moves_ready _ _) (fun list member => (masked list member).1) all
  obtain ⟨single, cycles, counted, total'⟩ :=
    cycles_of_drainInto (fun list member => (masked list member).1) drained
  rw [reached] at commands total
  have equal : count = single := by
    have commands' := congrArg Stats.commands alike.stats_of_stops
    dsimp only at commands'
    omega
  refine ⟨episodes ++ [closing], all, Trace.fetches_of_effects shows,
    Trace.events_of_effects shows, Trace.raised_of_effects shows,
    Trace.delivered_of_effects shows, ?_, by rw [sum, cycles, equal]⟩
  rw [reached]
  exact alike.cameAsFar queue (by rw [total, equal, total'])

/-- A list at the beginning of the scratchpad that waits at its fourth word. -/
def threeWords : DisplayList :=
  .fresh 1 0x00010000 0x0001000C (-1)

/-- A new engine with a list of three words. -/
def holdingThree : Engine :=
  { initial {} with queue := [threeWords], nextId := 2 }

/-- Three words in full, the middle one a command for the renderer. -/
def inFull : Host :=
  hostWith [0, 0x04000003, 0]

/-- Stops right behind each of the first two words, with no more words written than those. -/
def wordByWord : List Stop :=
  [⟨hostWith [0], 0x00010004⟩, ⟨hostWith [0, 0x04000003], 0x00010008⟩]

/-- Words that are written one by one are carried out as if they were there at once. -/
theorem drain_wordByWord
    : ∃ whole last seen episodes,
        holdingThree.queue = [threeWords]
        ∧ (Queue.ids holdingThree.queue).Nodup
        ∧ (∀ list ∈ holdingThree.queue, list.pc.IsMasked ∧ list.stall.IsMasked)
        ∧ threeWords.state ≠ .completed
        ∧ inFull.memory.isMapped threeWords.pc
        ∧ holdingThree.drain inFull = some whole
        ∧ Execution.Way inFull.memory holdingThree.config.traceCommands false
          (holdingThree.entry inFull.ticks threeWords) wordByWord last seen
        ∧ (wordByWord.map (·.address)).IsChain (· ≠ ·)
        ∧ holdingThree.performAll (moves 1 (wordByWord ++ [⟨inFull, 0x0001000C⟩]))
          = some episodes
        ∧ (showing episodes).fetches = whole.trace.fetches
        ∧ (showing episodes).events = whole.trace.events
        ∧ whole.engine.CameAsFar 2 (holdingThree.after episodes) := by
  have distinct : (Queue.ids holdingThree.queue).Nodup := by decide
  have masked : ∀ list ∈ holdingThree.queue, list.pc.IsMasked ∧ list.stall.IsMasked :=
    List.forall_mem_singleton.mpr ⟨rfl, rfl⟩
  have waiting : threeWords.state ≠ .completed := by decide
  have mapped : inFull.memory.isMapped threeWords.pc := by decide
  obtain ⟨whole, drained⟩ := Option.isSome_iff_exists.mp
    (show (holdingThree.drain inFull).isSome by decide +kernel)
  have goes : Execution.goes inFull.memory holdingThree.config.traceCommands false
      (holdingThree.entry inFull.ticks threeWords) wordByWord := by decide +kernel
  have apart : (wordByWord.map (·.address)).IsChain (· ≠ ·) := by decide
  obtain ⟨last, seen, way⟩ := Execution.way_of_goes goes
  obtain ⟨episodes, performed, fetches, events, -, -, reached, -⟩ :=
    drain_piecewise rfl distinct masked waiting mapped drained way apart 7
  exact ⟨whole, last, seen, episodes, rfl, distinct, masked, waiting, mapped, drained, way, apart,
    performed, fetches, events, reached⟩

/-- Two calls of a subroutine that returns at once. -/
def callingTwice : List Word :=
  [0x0A010010, 0x0A010010, 0, 0, 0x0B000000]

/-- Two stops at the subroutine and one behind the calls. The second call is missing in the memory
of the last stop, for the way to which it is not needed.
-/
def calledTwice : List Stop :=
  [⟨hostWith callingTwice, 0x00010010⟩, ⟨hostWith callingTwice, 0x00010010⟩,
    ⟨hostWith (callingTwice.set 1 0), 0x00010008⟩]

/-- A list that is made to wait where it waits already does not go on to the next time it comes
there, so that it may lack words further on that it has passed without stops.
-/
theorem drain_not_piecewise
    : ∃ whole last seen episodes,
        holdingThree.queue = [threeWords]
        ∧ (Queue.ids holdingThree.queue).Nodup
        ∧ (∀ list ∈ holdingThree.queue, list.pc.IsMasked ∧ list.stall.IsMasked)
        ∧ threeWords.state ≠ .completed
        ∧ (hostWith callingTwice).memory.isMapped threeWords.pc
        ∧ holdingThree.drain (hostWith callingTwice) = some whole
        ∧ Execution.Way (hostWith callingTwice).memory holdingThree.config.traceCommands false
          (holdingThree.entry 7 threeWords) calledTwice last seen
        ∧ holdingThree.performAll
            (moves 1 (calledTwice ++ [⟨hostWith callingTwice, 0x0001000C⟩]))
          = some episodes
        ∧ (showing episodes).fetches ≠ whole.trace.fetches := by
  have single : (holdingThree.drain (hostWith callingTwice)).map (·.trace.fetches.length)
      = some 5 := by decide +kernel
  have series : (holdingThree.performAll
      (moves 1 (calledTwice ++ [⟨hostWith callingTwice, 0x0001000C⟩]))).map
        (fun episodes => (showing episodes).fetches.length) = some 4 := by decide +kernel
  have goes : Execution.goes (hostWith callingTwice).memory holdingThree.config.traceCommands
      false (holdingThree.entry 7 threeWords) calledTwice := by decide +kernel
  obtain ⟨whole, drained, more⟩ := Option.map_eq_some_iff.mp single
  obtain ⟨episodes, performed, fewer⟩ := Option.map_eq_some_iff.mp series
  obtain ⟨last, seen, way⟩ := Execution.way_of_goes goes
  refine ⟨whole, last, seen, episodes, rfl, by decide, List.forall_mem_singleton.mpr ⟨rfl, rfl⟩,
    by decide, by decide, drained, way, performed, fun same => ?_⟩
  rw [same, more] at fewer
  cases fewer

end Engine

end GraphicsEngine
