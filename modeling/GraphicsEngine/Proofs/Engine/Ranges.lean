import GraphicsEngine.Proofs.Engine.Soundness
import GraphicsEngine.Proofs.Engine.Waiting
import GraphicsEngine.Proofs.Execution.Announcements
import GraphicsEngine.Proofs.Memory

/-! Everything that the engine counts, numbers or addresses stays in range, in the engines that
operations lead to and at every loop head on the way there.
-/

namespace GraphicsEngine

-----------------------------------------------------------------------------------------
-- Lists in range
-----------------------------------------------------------------------------------------

/-- A list whose addresses are those of the address map, whose calls fit on the stack, and whose
number and channel are such as are given.
-/
structure DisplayList.InRange (list : DisplayList)
    : Prop where
  id : 1 ≤ list.id.toNat
  start : list.start.toNat < 0x10000000
  pc : list.pc.toNat < 0x10000000
  stall : list.stall.toNat < 0x10000000
  stack : ∀ address ∈ list.stack, address.toNat < 0x10000000
  depth : list.stack.length ≤ 32
  channel : -1 ≤ list.channel.toInt

/-- There is a number where it is not zero. -/
theorem one_le_toNat_iff (id : ListId)
    : 1 ≤ id.toNat ↔ id ≠ 0 := by
  rw [Nat.one_le_iff_ne_zero, ne_eq, ne_eq, ← UInt32.toNat_inj]
  rfl

/-- Sound lists are those in range, field by field. -/
theorem DisplayList.sound_iff_inRange (list : DisplayList)
    : list.Sound ↔ list.InRange := by
  have channel : ¬list.channel < -1 ↔ -1 ≤ list.channel.toInt := by
    rw [Int32.lt_iff_toInt_lt, Int.not_lt]
    rfl
  constructor
  · intro sound
    exact {
      id := (one_le_toNat_iff _).mpr sound.id
      start := (Address.isMasked_iff _).mp sound.start
      pc := (Address.isMasked_iff _).mp sound.pc
      stall := (Address.isMasked_iff _).mp sound.stall
      stack := fun address member => (Address.isMasked_iff _).mp (sound.stack address member)
      depth := sound.shallow
      channel := channel.mp sound.channel }
  · intro inRange
    exact {
      id := (one_le_toNat_iff _).mp inRange.id
      start := (Address.isMasked_iff _).mpr inRange.start
      pc := (Address.isMasked_iff _).mpr inRange.pc
      stall := (Address.isMasked_iff _).mpr inRange.stall
      stack := fun address member => (Address.isMasked_iff _).mpr (inRange.stack address member)
      shallow := inRange.depth
      channel := channel.mpr inRange.channel }

-----------------------------------------------------------------------------------------
-- Loop heads
-----------------------------------------------------------------------------------------

/-- What is seen of a turn. -/
def Progress.seen
    : Progress → List Occurrence
  | .running _ seen => seen
  | .ended _ _ seen => seen

namespace Execution

variable {memory : Memory} {traceCommands : Bool} {execution first last : Execution}
  {heads : List Execution} {seen : List Occurrence} {ending : Ending} {address : Address}
  {word : Word}

/-- A word that a turn fetches is the one that stands where the turn begins. -/
theorem Turn.fetched {progress : Progress}
    (turn : Turn memory traceCommands execution progress)
    (member : (address, word) ∈ progress.seen.filterMap Occurrence.fetch?)
    : execution.list.pc = address ∧ memory.readWord address = .ok word := by
  cases turn with
  | stalls | fails => cases member
  | executes _ read readable _ _ _ same | ends _ read readable _ _ _ _ same =>
      rw [Progress.seen, ((reacts_of_eq same).heeds traceCommands).fetches,
        List.mem_singleton, Prod.mk.injEq] at member
      obtain ⟨rfl, rfl⟩ := member
      exact ⟨rfl, readable⟩

/-- A word that is fetched on a passage stands at one of its loop heads, by induction on the turns.
-/
theorem Passage.fetched (passage : Passage memory traceCommands first heads seen last)
    (member : (address, word) ∈ seen.filterMap Occurrence.fetch?)
    : ∃ before happened head, Passage memory traceCommands first before happened head
        ∧ head.list.pc = address ∧ memory.readWord address = .ok word := by
  induction passage with
  | here => cases member
  | @turn execution _ _ _ _ _ stepped _ ih =>
      rw [List.filterMap_append] at member
      rcases List.mem_append.mp member with member | member
      · exact ⟨[], [], execution, .here execution, (turn_of_step stepped).fetched member⟩
      · obtain ⟨before, happened, head, passage, stands⟩ := ih member
        exact ⟨_, _, head, .turn stepped passage, stands⟩

/-- So does a word that is fetched over a run. -/
theorem Runs.fetched {fuel : Nat} (runs : Runs memory traceCommands fuel first ending last seen)
    (member : (address, word) ∈ seen.filterMap Occurrence.fetch?)
    : ∃ before happened head, Passage memory traceCommands first before happened head
        ∧ head.list.pc = address ∧ memory.readWord address = .ok word := by
  obtain ⟨heads, head, early, late, passage, ended, -, rfl⟩ := runs
  rw [List.filterMap_append] at member
  rcases List.mem_append.mp member with member | member
  · exact passage.fetched member
  · exact ⟨heads, early, head, passage, (turn_of_step ended).fetched member⟩

/-- A word that is carried out at a sound list leaves no more calls open than there is room for, and
a sound list once the next word is moved on to, although a transfer has left the address before its
target in between.
-/
theorem react_sound (memory : Memory) (sound : execution.list.Sound) (word : Word)
    : (execution.react memory word).execution.list.stack.length ≤ DisplayList.stackCapacity
      ∧ ((execution.react memory word).execution.advance word).list.Sound := by
  have performs : Performs memory (execution.recordWord word) (execution.react memory word) :=
    performs_perform memory (execution.recordWord word) _ _
  exact ⟨(performs.stack sound).2, performs.sound sound word⟩

end Execution

namespace Engine

variable {host : Host} {engine after final : Engine} {list later : DisplayList} {queue : Queue}
  {ending : Ending} {answer : Bool} {seen : List Occurrence} {head : Execution}
  {address : Address} {word : Word}

/-- The loop heads that running a queue comes to: those of the list at the front, if it can run, and
those of the lists behind it once it has left.
-/
inductive ComesTo (host : Host)
    : Queue → Engine → Execution → Prop
  | front {engine : Engine} {list : DisplayList} {heads : List Execution}
    {seen : List Occurrence} {head : Execution} (rest : Queue) (waiting : list.state ≠ .completed)
    (mapped : host.memory.isMapped list.pc)
    (passage : Execution.Passage host.memory engine.config.traceCommands
      ((engine.present list).launch list) heads seen head)
    : ComesTo host (list :: rest) engine head
  | behind {engine after : Engine} {list later : DisplayList} {rest : Queue} {ending : Ending}
    {seen : List Occurrence} {head : Execution}
    (visits : Visits host engine list ending later after seen) (leaving : ending.leaves)
    (comes : ComesTo host rest after head)
    : ComesTo host (list :: rest) engine head

/-- Lists that are sound in the queue are sound at every loop head, list by list. -/
theorem ComesTo.sound (comes : ComesTo host queue engine head)
    (lists : ∀ list ∈ queue, list.Sound)
    : head.list.Sound := by
  induction comes with
  | front _ _ _ passage =>
      have sound := lists _ List.mem_cons_self
      exact passage.keeps Execution.sound_of_running { sound with }
  | behind _ _ _ ih => exact ih fun list member => lists list (List.mem_cons_of_mem _ member)

/-- A word that is fetched over a list's time at the front stands at one of the loop heads. -/
theorem Visits.fetched (visits : Visits host engine list ending later after seen)
    (member : (address, word) ∈ seen.filterMap Occurrence.fetch?) (rest : Queue)
    : ∃ head, ComesTo host (list :: rest) engine head
        ∧ head.list.pc = address ∧ host.memory.readWord address = .ok word := by
  cases visits with
  | skips | misses => cases member
  | runs waiting mapped ran =>
      rw [filterMap_stalled fun _ => rfl] at member
      obtain ⟨_, _, head, passage, stands⟩ := Execution.Runs.fetched ran member
      exact ⟨head, .front rest waiting mapped passage, stands⟩

/-- A word that is fetched while the queue runs stands at one of the loop heads, list by list. -/
theorem Drains.fetched (drains : Drains host queue engine answer final seen)
    (member : (address, word) ∈ seen.filterMap Occurrence.fetch?)
    : ∃ head, ComesTo host queue engine head
        ∧ head.list.pc = address ∧ host.memory.readWord address = .ok word := by
  induction drains with
  | empty => cases member
  | leaves visits leaving _ ih =>
      rw [List.filterMap_cons_none rfl, List.filterMap_append] at member
      rcases List.mem_append.mp member with member | member
      · exact visits.fetched member _
      · obtain ⟨head, comes, stands⟩ := ih member
        exact ⟨head, .behind visits leaving comes, stands⟩
  | stays visits =>
      rw [List.filterMap_cons_none rfl] at member
      exact visits.fetched member _

end Engine

namespace Operation

variable {host : Host} {engine : Engine} {operation : Operation} {outcome : Outcome Answer}
  {head : Execution} {address : Address} {word : Word}

/-- The loop heads that an operation comes to when it runs the queue. -/
def ComesTo (host : Host) (engine : Engine) (operation : Operation) (head : Execution)
    : Prop :=
  ∃ ready before answer, operation.Readies engine ready before answer
    ∧ Engine.ComesTo host ready.queue (ready.takeUp host.ticks) head

/-- All words that an operation fetches stand at loop heads that it comes to. -/
theorem fetched (performed : operation.perform host engine = some outcome)
    (member : (address, word) ∈ outcome.trace.fetches)
    : ∃ head, ComesTo host engine operation head
        ∧ head.list.pc = address ∧ host.memory.readWord address = .ok word := by
  cases performs_of_perform performed with
  | drains readies drained =>
      -- Nothing is fetched while the engine is made ready, so the word comes from the drain.
      obtain ⟨final, seen, drains, -, traced⟩ := Engine.drainInto_eq_some_iff.mp drained
      rw [answerWith, traced, Trace.append_eq_append_toArray, Trace.fetches_append,
        readies.fetches, List.nil_append, Trace.fetches_toArray] at member
      obtain ⟨head, comes, stands⟩ := drains.fetched member
      exact ⟨head, ⟨_, _, _, readies, comes⟩, stands⟩
  | serves | sets | resets => cases member
  | loads loaded =>
      obtain ⟨restoration, _, rfl, -, -⟩ := Engine.of_load loaded
      simp only [answerWith, Engine.adoptTrace] at member
      split at member <;> cases member
  | rests _ trace silent =>
      have none : trace.fetches = Trace.fetches #[] := Trace.fetches_of_effects silent
      rw [none] at member
      cases member

end Operation

namespace Engine

variable {engine : Engine} {host : Host} {operation : Operation} {head : Execution}

/-- Every list is sound at the loop heads that an operation comes to in a sound engine. -/
theorem Sound.comesTo (sound : engine.Sound) (comes : operation.ComesTo host engine head)
    : head.list.Sound := by
  obtain ⟨ready, _, _, readies, comes⟩ := comes
  exact comes.sound (sound.ready readies).1

/-- In every engine that operations lead to, snapshots of any origin included, the lists are in
range, there is a number for the next one, and the current list is in the queue. While an operation
runs the queue the list is in range at every loop head as well, even if the operation never comes to
an end: what is read there lies in one region, the calls have room while the command is carried out,
and the list is in range again when it moves on. Words are fetched at loop heads only.
-/
theorem Reachable.in_range {config : Config} (reachable : engine.Reachable config)
    : (∀ list ∈ engine.queue, list.InRange)
      ∧ 1 ≤ engine.nextId.toNat
      ∧ (∀ id, engine.current = some id → ∃ list ∈ engine.queue, list.id = id)
      ∧ (∀ {host : Host} {operation : Operation} {head : Execution},
          operation.ComesTo host engine head
          → head.list.InRange
            ∧ ∀ word, host.memory.readWord head.list.pc = .ok word
                → (∃ region ∈ host.memory.regions, region.Holds head.list.pc 4)
                  ∧ (head.react host.memory word).execution.list.stack.length ≤ 32
                  ∧ ((head.react host.memory word).execution.advance word).list.InRange)
      ∧ ∀ {host : Host} {operation : Operation} {outcome : Outcome Answer},
          operation.perform host engine = some outcome
          → ∀ fetch ∈ outcome.trace.fetches,
              ∃ head, operation.ComesTo host engine head ∧ head.list.pc = fetch.1 := by
  have sound := reachable.sound
  refine ⟨fun list member => list.sound_iff_inRange.mp (sound.lists list member),
    (one_le_toNat_iff _).mpr sound.nextId, fun id current => ?_, ?_, ?_⟩
  · exact List.mem_map.mp (sound.current id current)
  · intro host operation head comes
    have standing := sound.comesTo comes
    refine ⟨head.list.sound_iff_inRange.mp standing, fun word readable => ?_⟩
    obtain ⟨region, found, holds⟩ := Memory.region_of_readWord readable
    obtain ⟨shallow, next⟩ := Execution.react_sound host.memory standing word
    rw [standing.pc] at holds
    exact ⟨⟨region, List.mem_of_find?_eq_some found, holds⟩, shallow,
      (DisplayList.sound_iff_inRange _).mp next⟩
  · intro host operation outcome performed fetch member
    obtain ⟨head, comes, stands, -⟩ := Operation.fetched performed member
    exact ⟨head, comes, stands⟩

/-- A list in the scratchpad that jumps over a word and joins in front of the one that waits. -/
def jumpsAhead : Operation :=
  .enqueue 0x00010000 0x0001000C (-1) true

/-- Behind the jump the list stands at the word that it has jumped to, and is in range. -/
theorem in_range_jumpsAhead
    : waiting.Reachable {}
      ∧ ∃ head outcome,
          jumpsAhead.ComesTo (hostWith [0x08010008, 0, 0x0B000000]) waiting head
          ∧ head.list.pc = 0x00010008
          ∧ head.list.InRange
          ∧ (∃ region ∈ (hostWith [0x08010008, 0, 0x0B000000]).memory.regions,
            region.Holds head.list.pc 4)
          ∧ jumpsAhead.perform (hostWith [0x08010008, 0, 0x0B000000]) waiting = some outcome
          ∧ outcome.trace.fetches = [(0x00010000, 0x08010008), (0x00010008, 0x0B000000)] := by
  have reachable : waiting.Reachable {} := .perform .initial perform_waiting
  have known : (jumpsAhead.perform (hostWith [0x08010008, 0, 0x0B000000]) waiting).map
      (·.trace.fetches) = some [(0x00010000, 0x08010008), (0x00010008, 0x0B000000)] := by
    decide +kernel
  obtain ⟨outcome, performed, fetches⟩ := Option.map_eq_some_iff.mp known
  obtain ⟨-, -, -, heads, fetched⟩ := reachable.in_range
  obtain ⟨head, comes, stands⟩ := fetched performed (0x00010008, 0x0B000000) (by simp [fetches])
  obtain ⟨inRange, reads⟩ := heads comes
  have readable : (hostWith [0x08010008, 0, 0x0B000000]).memory.readWord head.list.pc
      = .ok 0x0B000000 := by
    rw [stands]
    decide +kernel
  obtain ⟨held, -⟩ := reads _ readable
  exact ⟨reachable, head, outcome, comes, stands, inRange, held, performed, fetches⟩

end Engine

end GraphicsEngine
