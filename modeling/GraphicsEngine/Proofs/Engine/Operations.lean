import GraphicsEngine.Engine.Operation
import GraphicsEngine.Proofs.Effects
import GraphicsEngine.Proofs.Engine.Drains

/-! All that an operation can do, and the engines that operations lead to. -/

namespace GraphicsEngine

/-- A queue in which no list has the number is left as it is. -/
theorem Queue.moveStall_of_notMem {queue : Queue} {id : ListId} (unknown : id ∉ Queue.ids queue)
    (stall : Address)
    : Queue.moveStall queue id stall = queue := by
  refine (List.map_congr_left fun list member => ?_).trans (List.map_id queue)
  have other : list.id ≠ id := fun same => unknown (same ▸ List.mem_map_of_mem member)
  simp [other]

namespace Operation

/-- The operations that run the queue: the engine that they take up, what is seen before the queue
runs, and what is answered when it has run empty or not.
-/
inductive Readies (engine : Engine)
    : Operation → Engine → Trace → (Bool → Answer) → Prop
  | enqueue (list stall : Address) (channel : Int32) (head : Bool)
    : Readies engine (.enqueue list stall channel head) (engine.join list stall channel head)
        #[.notice (.enqueued (.fresh engine.nextId list stall channel) head)]
        fun _ => .enqueued engine.nextId
  | moveStall (id : ListId) (stall : Address)
    : Readies engine (.moveStall id stall)
        { engine with queue := Queue.moveStall engine.queue id stall } #[] fun _ => .done
  | drain : Readies engine .drain engine #[] .drained
  | endService
    : Readies engine .endService
        { engine with interrupts := { engine.interrupts with serving := false, pending := #[] } }
        (engine.interrupts.pending.map .delivered) .drained

/-- The operation runs the queue. -/
def runsQueue
    : Operation → Bool
  | enqueue _ _ _ _ | moveStall _ _ | drain | endService => true
  | beginService | setInterrupts _ | reset | load _ => false
  | drawSync _ | listSync _ _ | dequeueList _ | continueQueue | breakQueue _ => false

/-- An operation that runs the queue makes some engine ready for that, case by case. -/
theorem exists_readies {operation : Operation} (runs : operation.runsQueue) (engine : Engine)
    : ∃ ready before answer, operation.Readies engine ready before answer := by
  cases operation with
  | enqueue list stall channel head => exact ⟨_, _, _, .enqueue list stall channel head⟩
  | moveStall id stall => exact ⟨_, _, _, .moveStall id stall⟩
  | drain => exact ⟨_, _, _, .drain⟩
  | endService => exact ⟨_, _, _, .endService⟩
  | _ => cases runs

/-- All that an operation can do. -/
inductive Performs (host : Host) (engine : Engine)
    : Operation → Outcome Answer → Prop
  | drains {operation : Operation} {ready : Engine} {before : Trace} {answer : Bool → Answer}
    {outcome : Outcome Bool} (readies : operation.Readies engine ready before answer)
    (drained : ready.drainInto host before = some outcome)
    : Performs host engine operation (answerWith outcome answer)
  | serves
    : Performs host engine .beginService
        { answer := .done, engine := engine.beginService, trace := #[] }
  | sets (enabled : Bool)
    : Performs host engine (.setInterrupts enabled)
        { answer := .done, engine := engine.setInterrupts enabled, trace := #[] }
  | resets : Performs host engine .reset (answerWith engine.reset fun _ => .done)
  | loads {bytes : Bytes} {outcome : Outcome Unit} (loaded : engine.load bytes = .ok outcome)
    : Performs host engine (.load bytes) (answerWith outcome fun _ => .done)
  /-- The engine stays as it is. -/
  | rests {operation : Operation} (answer : Answer) (trace : Trace)
    (silent : Occurrence.effects trace.toList = [])
    : Performs host engine operation { answer, engine, trace }

variable {host : Host} {engine ready : Engine} {operation : Operation} {before : Trace}
  {answer : Bool → Answer} {outcome : Outcome Answer}

/-- An operation that runs the queue drains the engine it has made ready. -/
theorem Readies.perform (readies : operation.Readies engine ready before answer)
    : operation.perform host engine
      = (ready.drainInto host before).map (answerWith · answer) := by
  cases readies with
  | enqueue list stall channel head =>
      rw [Operation.perform, Engine.enqueue_eq_map, Option.map_map]
      rfl
  | moveStall | drain | endService => rfl

/-- Every operation does one of these things, by cases on the operation. -/
theorem performs_of_perform (performed : operation.perform host engine = some outcome)
    : operation.Performs host engine outcome := by
  have drained {ready before answer} (readies : operation.Readies engine ready before answer)
      : operation.Performs host engine outcome := by
    rw [readies.perform] at performed
    obtain ⟨drained, ran, rfl⟩ := Option.map_eq_some_iff.mp performed
    exact .drains readies ran
  cases operation with
  | enqueue list stall channel head => exact drained (.enqueue list stall channel head)
  | moveStall id stall => exact drained (.moveStall id stall)
  | drain => exact drained .drain
  | endService => exact drained .endService
  | beginService =>
      cases performed
      exact .serves
  | setInterrupts enabled =>
      cases performed
      exact .sets enabled
  | reset =>
      cases performed
      exact .resets
  | load bytes =>
      cases performed
      simp only [loadInto]
      split
      · next loaded => exact .loads loaded
      · exact .rests _ _ rfl
  | drawSync mode =>
      cases performed
      simp only [Engine.drawSync]
      split
      · exact .rests _ _ rfl
      · exact .rests _ _ rfl
      · split <;> exact .rests _ _ rfl
  | listSync id mode =>
      cases performed
      simp only [Engine.listSync]
      split
      · exact .rests _ _ rfl
      · exact .rests _ _ rfl
      · split <;> exact .rests _ _ rfl
  | dequeueList _ | continueQueue =>
      cases performed
      exact .rests _ _ rfl
  | breakQueue mode =>
      cases performed
      simp only [refuseBreak]
      split <;> exact .rests _ _ rfl

/-- What holds of all lists before, of a fresh list and of a list that waits at another address,
holds of all lists that are ready to be run.
-/
theorem Readies.forall_mem {Holds : DisplayList → Prop}
    (readies : operation.Readies engine ready before answer)
    (each : ∀ list ∈ engine.queue, Holds list)
    (fresh : ∀ list stall channel, Holds (.fresh engine.nextId list stall channel))
    (moved : ∀ list stall, Holds list → Holds (list.withStall stall))
    : ∀ list ∈ ready.queue, Holds list := by
  cases readies with
  | enqueue list stall channel head =>
      intro joined member
      simp only [Engine.join] at member
      split at member
      · rcases List.mem_cons.mp member with rfl | member
        · exact fresh list stall channel
        · exact each joined member
      · rcases List.mem_append.mp member with member | member
        · exact each joined member
        · exact List.mem_singleton.mp member ▸ fresh list stall channel
  | moveStall id stall =>
      intro list member
      obtain ⟨origin, listed, rfl⟩ := List.mem_map.mp member
      split
      · exact moved origin stall (each origin listed)
      · exact each origin listed
  | drain | endService => exact each

theorem Readies.config (readies : operation.Readies engine ready before answer)
    : ready.config = engine.config := by
  cases readies <;> rfl

theorem Readies.stats (readies : operation.Readies engine ready before answer)
    : ready.stats = engine.stats := by
  cases readies <;> rfl

/-- No word is fetched before the queue is run. -/
theorem Readies.fetches (readies : operation.Readies engine ready before answer)
    : before.fetches = [] := by
  cases readies with
  | enqueue | moveStall | drain => rfl
  | endService => exact (Trace.of_effects_eq_delivered (Trace.effects_map_delivered _)).1

/-- The renderer is told nothing before the queue is run. -/
theorem Readies.events (readies : operation.Readies engine ready before answer)
    : before.events = [] := by
  cases readies with
  | enqueue | moveStall | drain => rfl
  | endService => exact (Trace.of_effects_eq_delivered (Trace.effects_map_delivered _)).2.1

/-- No operation changes the configuration. -/
theorem Performs.config (performs : operation.Performs host engine outcome)
    : outcome.engine.config = engine.config := by
  cases performs with
  | drains readies drained =>
      obtain ⟨final, _, drains, settled, -⟩ := Engine.drainInto_eq_some_iff.mp drained
      exact (congrArg Engine.config settled).trans (drains.settings.1.trans readies.config)
  | loads loaded =>
      unfold Engine.load at loaded
      split at loaded
      · cases loaded
      · cases loaded
        rfl
  | serves | sets | resets | rests => rfl

end Operation

/-- The engines that operations lead to from an engine that has done nothing yet, each operation
with a machine of its own around it.
-/
inductive Engine.Reachable (config : Config)
    : Engine → Prop
  | initial : Reachable config (.initial config)
  | perform {engine : Engine} {host : Host} {operation : Operation} {outcome : Outcome Answer}
    (reachable : Reachable config engine)
    (performed : operation.perform host engine = some outcome)
    : Reachable config outcome.engine

/-- Every engine that operations lead to has the configuration it was built with. -/
theorem Engine.Reachable.config_eq {config : Config} {engine : Engine}
    (reachable : Reachable config engine)
    : engine.config = config := by
  induction reachable with
  | initial => rfl
  | perform _ performed ih => exact (Operation.performs_of_perform performed).config.trans ih

-----------------------------------------------------------------------------------------
-- Series of operations
-----------------------------------------------------------------------------------------

/-- An operation and the machine around the engine while it is performed. -/
structure Request where
  host : Host
  operation : Operation

/-- One operation of a series: the engine before it and what came of it. -/
structure Episode where
  operation : Operation
  before : Engine
  outcome : Outcome Answer

/-- Performs operations one after the other; none when a list runs out of fuel. -/
def Engine.performAll
    : Engine → List Request → Option (List Episode)
  | _, [] => some []
  | engine, ⟨host, operation⟩ :: rest =>
      match operation.perform host engine with
      | none => none
      | some outcome =>
          match performAll outcome.engine rest with
          | none => none
          | some episodes => some (⟨operation, engine, outcome⟩ :: episodes)

theorem Engine.performAll_cons_eq_some_iff {engine : Engine} {host : Host}
    {operation : Operation} {rest : List Request} {episodes : List Episode}
    : engine.performAll (⟨host, operation⟩ :: rest) = some episodes
      ↔ ∃ outcome others, operation.perform host engine = some outcome
          ∧ outcome.engine.performAll rest = some others
          ∧ episodes = ⟨operation, engine, outcome⟩ :: others := by
  constructor
  · intro performed
    rw [performAll] at performed
    split at performed
    · cases performed
    · next first =>
      split at performed
      · cases performed
      · next later =>
        cases performed
        exact ⟨_, _, first, later, rfl⟩
  · intro holds
    obtain ⟨outcome, others, first, later, rfl⟩ := holds
    rw [performAll, first]
    dsimp only
    rw [later]

/-- The engine after a series of operations. -/
def Engine.after (engine : Engine) (episodes : List Episode)
    : Engine :=
  episodes.foldl (fun _ episode => episode.outcome.engine) engine

/-- Every engine that a series of operations leads to from a reachable one is reachable. -/
theorem Engine.Reachable.after {config : Config} {engine : Engine} {requests : List Request}
    {episodes : List Episode} (reachable : engine.Reachable config)
    (performed : engine.performAll requests = some episodes)
    : (engine.after episodes).Reachable config := by
  induction requests generalizing engine episodes with
  | nil =>
      cases performed
      exact reachable
  | cons request rest ih =>
      obtain ⟨outcome, others, first, later, rfl⟩ := performAll_cons_eq_some_iff.mp performed
      have behind := ih (.perform reachable first) later
      exact behind

/-- All that is seen over a series of operations. -/
def Engine.showing (episodes : List Episode)
    : Trace :=
  (episodes.flatMap (·.outcome.trace.toList)).toArray

/-- The effects of a series of operations are those of one operation after the other. -/
theorem Engine.effects_showing (episodes : List Episode)
    : Occurrence.effects (Engine.showing episodes).toList
      = episodes.flatMap (Occurrence.effects ·.outcome.trace.toList) :=
  List.filter_flatMap ..

/-- A series is performed behind another one. -/
theorem Engine.performAll_append {engine : Engine} {earlier later : List Request}
    {episodes others : List Episode} (first : engine.performAll earlier = some episodes)
    (second : (engine.after episodes).performAll later = some others)
    : engine.performAll (earlier ++ later) = some (episodes ++ others) := by
  induction earlier generalizing engine episodes with
  | nil =>
      cases first
      exact second
  | cons request rest ih =>
      obtain ⟨outcome, behind, performed, series, rfl⟩ := performAll_cons_eq_some_iff.mp first
      exact performAll_cons_eq_some_iff.mpr
        ⟨outcome, behind ++ others, performed, ih series second, rfl⟩

end GraphicsEngine
