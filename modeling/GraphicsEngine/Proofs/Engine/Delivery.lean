import GraphicsEngine.Proofs.Engine.Restoration
import GraphicsEngine.Proofs.Engine.Waiting
import GraphicsEngine.Proofs.Execution.Delivery

/-! No interrupt is lost, delivered twice or overtaken by another one, however the service of
interrupts begins and ends between and during the runs of the queue.
-/

namespace GraphicsEngine

/-- Notices have nothing to do with interrupts. -/
theorem Delivery.Conveys.notice {first second : Delivery} {seen : List Occurrence}
    (conveys : first.Conveys second seen) (notice : Notice)
    : first.Conveys second (.notice notice :: seen) :=
  ⟨conveys.order, conveys.counted, conveys.orderly⟩

/-- The operation neither clears the engine nor replaces what it holds. -/
def Operation.carriesOn (operation : Operation)
    : Bool :=
  operation.runsQueue || operation.isQuiet

namespace Engine

def delivery (engine : Engine)
    : Delivery :=
  ⟨engine.interrupts, engine.stats.interrupts⟩

-----------------------------------------------------------------------------------------
-- Drains
-----------------------------------------------------------------------------------------

variable {host : Host} {engine ready after final : Engine} {list later : DisplayList}
  {queue : Queue} {ending : Ending} {answer : Bool} {seen : List Occurrence}

@[simp] theorem delivery_count (engine : Engine) (ending : Ending)
    : (engine.count ending).delivery = engine.delivery := by
  cases ending <;> rfl

/-- A list's time at the front keeps the order of interrupts. -/
theorem Visits.conveys (visits : Visits host engine list ending later after seen)
    (orderly : engine.interrupts.Orderly)
    : engine.delivery.Conveys after.delivery seen := by
  cases visits with
  | skips | misses => exact .of_silent orderly rfl rfl rfl rfl
  | @runs _ _ _ last seen ran =>
      have launched : ((engine.present list).launch list).delivery = engine.delivery := by
        simp only [Execution.delivery, launch]
        split <;> rfl
      have landed : (((engine.present list).land last).count ending).delivery = last.delivery :=
        delivery_count ..
      have conveyed := Execution.Runs.conveys ran orderly
      rw [landed, ← launched]
      split
      · exact conveyed.trans (.of_silent conveyed.orderly rfl rfl rfl rfl)
      · exact conveyed

/-- Running a queue keeps the order of interrupts, list by list. -/
theorem Drains.conveys (drains : Drains host queue engine answer final seen)
    (orderly : engine.interrupts.Orderly)
    : engine.delivery.Conveys final.delivery seen := by
  induction drains with
  | empty => exact .of_silent orderly rfl rfl rfl rfl
  | leaves visits _ _ ih =>
      have conveyed := visits.conveys orderly
      exact (conveyed.trans (ih conveyed.orderly)).notice _
  | stays visits => exact (visits.conveys orderly).notice _

/-- A drain adds to a trace what keeps the order of interrupts. -/
theorem conveys_of_drainInto {trace : Trace} {outcome : Outcome Bool}
    (orderly : engine.interrupts.Orderly)
    (drained : engine.drainInto host trace = some outcome)
    : ∃ seen : List Occurrence,
        outcome.trace = trace ++ seen
        ∧ engine.delivery.Conveys outcome.engine.delivery seen := by
  obtain ⟨final, seen, drains, settled, traced⟩ := drainInto_eq_some_iff.mp drained
  have conveyed := Drains.conveys drains orderly
  rw [settled]
  exact ⟨seen, traced, conveyed⟩

/-- A list's time at the front leaves interrupts alone while none is being served. -/
theorem Visits.interrupts (visits : Visits host engine list ending later after seen)
    (idle : engine.interrupts.serving = false)
    : after.interrupts = engine.interrupts := by
  cases visits with
  | skips => rfl
  | misses => rfl
  | runs _ _ ran => exact ran.interrupts idle

/-- A drain leaves interrupts alone while none is being served, list by list. -/
theorem Drains.interrupts (drains : Drains host queue engine answer final seen)
    (idle : engine.interrupts.serving = false)
    : final.interrupts = engine.interrupts := by
  induction drains with
  | empty => rfl
  | leaves visits _ _ ih =>
      have visited := visits.interrupts idle
      exact (ih (visited ▸ idle)).trans visited
  | stays visits => exact visits.interrupts idle

-----------------------------------------------------------------------------------------
-- Operations
-----------------------------------------------------------------------------------------

variable {operation : Operation} {before : Trace}

/-- What an operation does before the queue is run keeps the order of interrupts: at the end of
service those that waited are delivered before any other one is raised.
-/
theorem conveys_of_readies {answer : Bool → Answer}
    (readies : operation.Readies engine ready before answer) (orderly : engine.interrupts.Orderly)
    : engine.delivery.Conveys ready.delivery before.toList := by
  cases readies with
  | enqueue | moveStall | drain => exact .of_silent orderly rfl rfl rfl rfl
  | endService =>
      obtain ⟨-, -, raised, delivered⟩ :=
        Trace.of_effects_eq_delivered (Trace.effects_map_delivered engine.interrupts.pending)
      rw [Trace.raised_eq_filterMap] at raised
      rw [Trace.delivered_eq_filterMap] at delivered
      exact {
        order := by
          rw [raised, delivered]
          rfl
        counted := by
          rw [raised]
          rfl
        orderly := fun _ => rfl }

/-- An operation that carries on keeps the order of interrupts, whatever it does. -/
theorem conveys_of_perform {outcome : Outcome Answer} (carries : operation.carriesOn)
    (orderly : engine.interrupts.Orderly)
    (performed : operation.perform host engine = some outcome)
    : engine.delivery.Conveys outcome.engine.delivery outcome.trace.toList := by
  cases Operation.performs_of_perform performed with
  | @drains _ _ before _ _ readies drained =>
      have readied := conveys_of_readies readies orderly
      obtain ⟨seen, traced, conveyed⟩ := conveys_of_drainInto readied.orderly drained
      have all : (before ++ seen).toList = before.toList ++ seen := by simp
      simp only [Operation.answerWith, traced, all]
      exact readied.trans conveyed
  | serves =>
      refine .of_silent (fun idle => ?_) rfl rfl rfl rfl
      cases idle
  | sets => exact .of_silent orderly rfl rfl rfl rfl
  | resets | loads => cases carries
  | rests _ trace silent =>
      have none : Occurrence.effects trace.toList = [].map .delivered := silent
      obtain ⟨-, -, raised, delivered⟩ := Trace.of_effects_eq_delivered none
      rw [Trace.raised_eq_filterMap] at raised
      rw [Trace.delivered_eq_filterMap] at delivered
      exact .of_silent orderly rfl rfl raised delivered

/-- Operations that carry on keep the order of interrupts over any series of them. -/
theorem conveys_of_performAll {requests : List Request} {episodes : List Episode}
    (carries : ∀ request ∈ requests, request.operation.carriesOn)
    (orderly : engine.interrupts.Orderly)
    (performed : engine.performAll requests = some episodes)
    : engine.delivery.Conveys (engine.after episodes).delivery (showing episodes).toList := by
  induction requests generalizing engine episodes with
  | nil =>
      cases performed
      exact .of_silent orderly rfl rfl rfl rfl
  | cons request rest ih =>
      rw [List.forall_mem_cons] at carries
      obtain ⟨outcome, others, first, later, rfl⟩ := performAll_cons_eq_some_iff.mp performed
      have conveyed := conveys_of_perform carries.1 orderly first
      have all : (showing (⟨request.operation, engine, outcome⟩ :: others)).toList
          = outcome.trace.toList ++ (showing others).toList := rfl
      rw [all]
      exact conveyed.trans (ih carries.2 conveyed.orderly later)

/-- The engine has just been built or cleared. -/
inductive Begins
    : Engine → Prop
  | built (config : Config) : Begins (initial config)
  | cleared (engine : Engine) : Begins engine.reset.engine

/-- An engine that has been cleared is as good as new. -/
theorem Begins.eq_initial (begins : engine.Begins)
    : engine = initial engine.config := by
  cases begins <;> rfl

/-- All interrupts that have been raised have been delivered or wait, in the order in which they
were raised, and they wait only while one is being served.
-/
structure Delivers (engine : Engine) (raised delivered : List Interrupt)
    : Prop where
  order : raised = delivered ++ engine.interrupts.pending.toList
  serving : engine.interrupts.pending ≠ #[] → engine.interrupts.serving = true

/-- From what has been raised and delivered before, and what is seen since, follows what has been
raised and delivered by now.
-/
theorem Delivers.carryOn {raised delivered : List Interrupt} {trace : Trace}
    (delivers : engine.Delivers raised delivered)
    (conveys : engine.delivery.Conveys after.delivery trace.toList)
    : after.Delivers (raised ++ trace.raised) (delivered ++ trace.delivered) where
  order := by
    rw [delivers.order, Trace.raised_eq_filterMap, Trace.delivered_eq_filterMap, List.append_assoc,
      List.append_assoc]
    exact congrArg (delivered ++ ·) conveys.order
  serving waits := by
    cases serving : after.interrupts.serving with
    | true => rfl
    | false => exact absurd (conveys.orderly serving) waits

theorem Delivers.orderly {raised delivered : List Interrupt}
    (delivers : engine.Delivers raised delivered)
    : engine.interrupts.Orderly := by
  intro idle
  by_contra waits
  cases idle.symm.trans (delivers.serving waits)

/-- Over every series of operations on a new engine, in which the service of interrupts may begin
and end at any time, all interrupts that are raised are delivered in order or wait, and are counted.
An engine that loads what the engine has saved goes on with those that wait.
-/
theorem performAll_delivers {requests : List Request} {episodes : List Episode}
    (begins : engine.Begins) (carries : ∀ request ∈ requests, request.operation.carriesOn)
    (performed : engine.performAll requests = some episodes)
    : (engine.after episodes).Delivers (showing episodes).raised (showing episodes).delivered
      ∧ (engine.after episodes).stats.interrupts
        = (showing episodes).delivered.length
          + (engine.after episodes).interrupts.pending.size
      ∧ ∀ (other : Engine) (bytes : Bytes) (loading : Outcome Unit),
          (engine.after episodes).save = .ok bytes
          → other.load bytes = .ok loading
          → loading.engine.interrupts.pending = (engine.after episodes).interrupts.pending
            ∧ ∀ more others,
                (∀ request ∈ more, request.operation.carriesOn)
                → loading.engine.performAll more = some others
                → (loading.engine.after others).Delivers
                    ((showing episodes).raised ++ (showing others).raised)
                    ((showing episodes).delivered ++ (showing others).delivered) := by
  have new := begins.eq_initial
  have started : engine.Delivers [] [] := by
    rw [new]
    exact ⟨rfl, fun waits => absurd rfl waits⟩
  have conveys := conveys_of_performAll carries started.orderly performed
  have delivers := started.carryOn conveys
  refine ⟨delivers, ?_, fun other bytes loading saved loaded => ?_⟩
  · have none : engine.stats.interrupts = 0 := by rw [new]; rfl
    have counted : (engine.after episodes).stats.interrupts
        = engine.stats.interrupts + (showing episodes).raised.length := by
      rw [Trace.raised_eq_filterMap]
      exact conveys.counted
    have length := congrArg List.length delivers.order
    rw [counted, none, Nat.zero_add]
    simpa using length
  · have reachable : engine.Reachable engine.config := by
      rw [new]
      exact .initial
    have restored := load_of_save (reachable.after performed).sound saved loaded
    have same : loading.engine.interrupts = (engine.after episodes).interrupts := by rw [restored]
    have goesOn
        : loading.engine.Delivers (showing episodes).raised (showing episodes).delivered := by
      constructor
      · rw [same]
        exact delivers.order
      · rw [same]
        exact delivers.serving
    exact ⟨by rw [same], fun more others carries performed =>
      goesOn.carryOn (conveys_of_performAll carries goesOn.orderly performed)⟩

/-- A list raises an interrupt, and another one does so while the first interrupt is served. -/
def servedBetween : List Request :=
  [⟨hostWith [0x0F00000A, 0x0C000000], .enqueue 0x00010000 0 3 false⟩,
    ⟨blankHost, .beginService⟩,
    ⟨hostWith [0x0F00000B, 0x0C000000], .enqueue 0x00010000 0 3 false⟩]

/-- The second interrupt waits, is saved, and is delivered by the engine that has loaded it. -/
theorem performAll_delivers_servedBetween
    : ∃ episodes bytes loading others,
        (initial {}).Begins
        ∧ (∀ request ∈ servedBetween, request.operation.carriesOn)
        ∧ (initial {}).performAll servedBetween = some episodes
        ∧ (showing episodes).raised = [⟨1, 0x00010004, 3, 0x0A⟩, ⟨2, 0x00010004, 3, 0x0B⟩]
        ∧ (showing episodes).delivered = [⟨1, 0x00010004, 3, 0x0A⟩]
        ∧ ((initial {}).after episodes).Delivers (showing episodes).raised
            (showing episodes).delivered
        ∧ ((initial {}).after episodes).save = .ok bytes
        ∧ (initial {}).load bytes = .ok loading
        ∧ loading.engine.interrupts.pending = #[⟨2, 0x00010004, 3, 0x0B⟩]
        ∧ loading.engine.performAll [⟨blankHost, .endService⟩] = some others
        ∧ (loading.engine.after others).Delivers
            ((showing episodes).raised ++ (showing others).raised)
            ((showing episodes).delivered ++ (showing others).delivered) := by
  have known : ((initial {}).performAll servedBetween).map (fun episodes =>
      ((showing episodes).raised, (showing episodes).delivered,
        ((initial {}).after episodes).queue, ((initial {}).after episodes).interrupts.pending))
      = some ([⟨1, 0x00010004, 3, 0x0A⟩, ⟨2, 0x00010004, 3, 0x0B⟩],
        [⟨1, 0x00010004, 3, 0x0A⟩], [], #[⟨2, 0x00010004, 3, 0x0B⟩]) := by decide +kernel
  obtain ⟨episodes, performed, shown⟩ := Option.map_eq_some_iff.mp known
  simp only [Prod.mk.injEq] at shown
  obtain ⟨raised, delivered, queue, pending⟩ := shown
  have begins : (initial {}).Begins := .built {}
  have carries : ∀ request ∈ servedBetween, request.operation.carriesOn := by decide
  obtain ⟨delivers, -, restores⟩ := performAll_delivers begins carries performed
  have sound := (Reachable.initial.after performed).sound
  obtain ⟨bytes, loading, saved, loaded⟩ : ∃ bytes loading,
      ((initial {}).after episodes).save = .ok bytes ∧ (initial {}).load bytes = .ok loading := by
    refine (restorable_iff sound).mpr ⟨⟨?_, ?_, ?_⟩, ?_, ?_⟩
    · simp [capture, pending, Snapshot.interruptLimit]
    all_goals simp [capture, queue, Queue.ids]
  obtain ⟨kept, goesOn⟩ := restores (initial {}) bytes loading saved loaded
  have empty : loading.engine.queue = [] := by rw [load_of_save sound saved loaded, queue]
  obtain ⟨others, served⟩ : ∃ others,
      loading.engine.performAll [⟨blankHost, .endService⟩] = some others := by
    simp [performAll, Operation.perform, endService, drainInto, visitAll, empty]
  exact ⟨episodes, bytes, loading, others, begins, carries, performed, raised, delivered, delivers,
    saved, loaded, kept.trans pending, served, goesOn _ others (by decide) served⟩

end Engine

end GraphicsEngine
