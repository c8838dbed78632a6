import GraphicsEngine.Proofs.Engine.Clocks
import GraphicsEngine.Proofs.Engine.Delivery
import GraphicsEngine.Proofs.Engine.Numbers
import GraphicsEngine.Session.Run

/-! How a session with one list goes on, and what holds of it at any time: no interrupt waits, and
no other list is in the queue.
-/

namespace GraphicsEngine.Session

-----------------------------------------------------------------------------------------
-- Steps
-----------------------------------------------------------------------------------------

/-- The session after the stall address of a list was moved. -/
def State.moved (session : State) (id : ListId) (stall : Address) (outcome : Outcome Bool)
    : State :=
  { session with
    engine := outcome.engine, drains := session.drains + 1
    trace := session.trace.push (.notice (.advancing id stall)) ++ outcome.trace }

/-- A session moves the stall address of a list to one address after the other. -/
inductive Advances (surroundings : Surroundings) (id : ListId)
    : List Address → State → State → Prop
  | here (session : State) : Advances surroundings id [] session session
  | move {stall : Address} {stalls : List Address} {session final : State} {outcome : Outcome Bool}
    (moved : session.engine.moveStall (session.host surroundings) id stall = some outcome)
    (advances : Advances surroundings id stalls (session.moved id stall outcome) final)
    : Advances surroundings id (stall :: stalls) session final

variable {arguments : Arguments} {surroundings : Surroundings} {id : ListId}
  {stalls more : List Address} {session middle final other : State}

/-- What a session that is about a list does with a series of addresses, by induction on them. -/
theorem advance_eq_some_iff (about : session.list = some id) {result : Result State}
    : advance surroundings stalls session = some result
      ↔ ∃ final, Advances surroundings id stalls session final
          ∧ result = { value := .ok final, trace := final.trace } := by
  induction stalls generalizing session with
  | nil =>
      constructor
      · intro advanced
        cases advanced
        exact ⟨session, .here session, rfl⟩
      · rintro ⟨final, advances, rfl⟩
        cases advances
        rfl
  | cons stall stalls ih =>
      have step : advance surroundings (stall :: stalls) session
          = (session.engine.moveStall (session.host surroundings) id stall).bind fun outcome =>
              advance surroundings stalls (session.moved id stall outcome) := by
        simp only [advance, about]
        split
        · next none =>
          rw [none]
          rfl
        · next outcome moved => simp only [moved, Option.bind_some, State.moved, about]
      have kept (outcome : Outcome Bool) : (session.moved id stall outcome).list = some id := about
      rw [step, Option.bind_eq_some_iff]
      constructor
      · rintro ⟨outcome, moved, advanced⟩
        obtain ⟨final, advances, rfl⟩ := (ih (kept outcome)).mp advanced
        exact ⟨final, .move moved advances, rfl⟩
      · rintro ⟨final, advances, rfl⟩
        cases advances with
        | @move _ _ _ _ outcome moved advances =>
            exact ⟨outcome, moved, (ih (kept outcome)).mpr ⟨final, advances, rfl⟩⟩

/-- A session comes to one state only. -/
theorem Advances.unique (advances : Advances surroundings id stalls session final)
    (again : Advances surroundings id stalls session other)
    : other = final := by
  induction advances with
  | here =>
      cases again
      rfl
  | move moved _ ih =>
      cases again with
      | move moved' again =>
          cases moved.symm.trans moved'
          exact ih again

/-- A session that has moved along some addresses can be stopped after any number of them. -/
theorem Advances.split (advances : Advances surroundings id (stalls ++ more) session final)
    : ∃ middle, Advances surroundings id stalls session middle
        ∧ Advances surroundings id more middle final := by
  induction stalls generalizing session with
  | nil => exact ⟨session, .here session, advances⟩
  | cons stall stalls ih =>
      cases advances with
      | move moved advances =>
          obtain ⟨middle, before, behind⟩ := ih advances
          exact ⟨middle, .move moved before, behind⟩

/-- With more fuel a session does the same. -/
theorem Advances.refueled (advances : Advances surroundings id stalls session final) {fuel : Nat}
    (enough : surroundings.fuel ≤ fuel)
    : Advances { surroundings with fuel } id stalls session final := by
  induction advances with
  | here session => exact .here session
  | move moved _ ih => exact .move (Engine.drainInto_refueled moved enough) ih

/-- Neither the memory nor what the session is about changes. -/
theorem Advances.same (advances : Advances surroundings id stalls session final)
    : final.memory = session.memory ∧ final.list = session.list := by
  induction advances with
  | here => exact ⟨rfl, rfl⟩
  | move _ _ ih => exact ih

-----------------------------------------------------------------------------------------
-- A new list
-----------------------------------------------------------------------------------------

/-- What holds at any time of a session that has begun with a new list. -/
structure Underway (arguments : Arguments) (session : State)
    : Prop where
  reachable : session.engine.ReachableInOrder (firstEngine arguments).config
  interrupts : session.engine.interrupts = (firstEngine arguments).interrupts
  list : session.list = some 1
  ids : Queue.ids session.engine.queue <:+ [1]

variable {memory : Memory} {size : UInt32}

/-- A new session is the one in which its list joins the first engine. -/
theorem launch_eq_some_iff
    : launch arguments surroundings memory size = some session
      ↔ ∃ outcome,
          (firstEngine arguments).enqueue
              { memory, ticks := surroundings.clock 0, fuel := surroundings.fuel }
              (arguments.list.getD arguments.loadAddress)
              (arguments.stall.getD (arguments.loadAddress + size)) arguments.channel arguments.head
            = some outcome
          ∧ session = {
              engine := outcome.engine, memory, list := some outcome.answer, drains := 1
              trace := outcome.trace } := by
  simp only [launch, State.host]
  split
  · next none => simp [none]
  · next outcome joined => simp [joined, eq_comm]

/-- A new session is under way. -/
theorem underway_of_launch (launched : launch arguments surroundings memory size = some session)
    : Underway arguments session := by
  obtain ⟨outcome, joined, rfl⟩ := launch_eq_some_iff.mp launched
  have performed : (Operation.enqueue ..).perform _ (firstEngine arguments)
      = some (Operation.answerWith outcome .enqueued) := congrArg (Option.map _) joined
  have inOrder : (firstEngine arguments).nextId ≠ Engine.lastId :=
    show (1 : ListId) ≠ Engine.lastId by decide
  have answer := Engine.answer_of_enqueue joined
  rw [Engine.enqueue_eq_map] at joined
  obtain ⟨drained, ran, rfl⟩ := Option.map_eq_some_iff.mp joined
  obtain ⟨final, _, drains, settled, -⟩ := Engine.drainInto_eq_some_iff.mp ran
  refine ⟨.perform .initial (fun _ => inOrder) performed, ?_, congrArg some answer, ?_⟩
  · exact (congrArg Engine.interrupts settled).trans (drains.interrupts rfl)
  · have alone (list stall : Address) (channel : Int32) (head : Bool)
        : Queue.ids ((firstEngine arguments).join list stall channel head).queue = [1] := by
      cases head <;> rfl
    have suffix := drains.ids_suffix
    rw [alone] at suffix
    rw [settled]
    exact suffix

/-- A session stays under way while it moves a stall address, step by step. -/
theorem Advances.underway (advances : Advances surroundings id stalls session final)
    (underway : Underway arguments session)
    : Underway arguments final := by
  induction advances with
  | here => exact underway
  | @move stall _ session _ outcome moved _ ih =>
      have performed : (Operation.moveStall id stall).perform _ session.engine
          = some (Operation.answerWith outcome fun _ => .done) := congrArg (Option.map _) moved
      obtain ⟨final, _, drains, settled, -⟩ := Engine.drainInto_eq_some_iff.mp moved
      have kept : outcome.engine.interrupts = session.engine.interrupts :=
        (congrArg Engine.interrupts settled).trans
          (drains.interrupts (congrArg Interrupts.serving underway.interrupts))
      have suffix : Queue.ids outcome.engine.queue <:+ Queue.ids session.engine.queue := by
        rw [settled, ← Queue.ids_moveStall session.engine.queue id stall]
        exact drains.ids_suffix
      exact ih {
        reachable := .perform underway.reachable (absurd rfl) performed
        interrupts := kept.trans underway.interrupts
        list := underway.list
        ids := suffix.trans underway.ids }

-----------------------------------------------------------------------------------------
-- Whole sessions
-----------------------------------------------------------------------------------------

/-- The same image is put into the same memory, whatever its file is called. -/
theorem loadImage_of_same {files others : Files} {like : Arguments}
    (placed : loadImage arguments files = .ok (memory, size))
    (image : others.read like.image = files.read arguments.image)
    (loadAddress : like.loadAddress = arguments.loadAddress)
    (ramSize : like.ramSize = arguments.ramSize)
    : loadImage like others = .ok (memory, size) := by
  rw [loadImage] at placed ⊢
  rw [image, loadAddress, ramSize]
  split at placed
  · cases placed
  · split at placed
    · cases placed
    · next full =>
      split at placed
      · cases placed
      · next fits =>
        split at placed
        · cases placed
        · rw [if_neg full, if_neg fits]
          exact placed

/-- A session that has begun goes on with the addresses that it is to move to, and is concluded. -/
theorem run_eq_some_iff {trace : Trace} {result : Result Report}
    (started : start arguments surroundings = some { value := .ok session, trace })
    (about : session.list = some id)
    : run arguments surroundings = some result
      ↔ ∃ final, Advances surroundings id arguments.advances session final
          ∧ result = {
              value := conclude arguments surroundings.files final
              trace := final.trace } := by
  rw [run, started]
  constructor
  · intro performed
    dsimp only at performed
    split at performed
    · cases performed
    · next advanced =>
      obtain ⟨_, -, failed⟩ := (advance_eq_some_iff about).mp advanced
      cases failed
    · next advanced =>
      obtain ⟨final, advances, ended⟩ := (advance_eq_some_iff about).mp advanced
      cases ended
      cases performed
      exact ⟨_, advances, rfl⟩
  · rintro ⟨final, advances, rfl⟩
    simp only [(advance_eq_some_iff about).mpr ⟨final, advances, rfl⟩]

/-- A session that succeeds has put its image into memory. -/
theorem exists_loadImage_of_run {report : Report} {trace : Trace}
    (succeeded : run arguments surroundings = some { value := .ok report, trace })
    : ∃ memory size, loadImage arguments surroundings.files = .ok (memory, size) := by
  cases placed : loadImage arguments surroundings.files with
  | ok image => exact ⟨image.1, image.2, rfl⟩
  | error failure =>
      rw [run, start, placed] at succeeded
      cases succeeded

/-- A session with a new list that comes to an end has begun, gone on and been concluded. -/
theorem of_run_new {result : Result Report} (new : arguments.loadState = none)
    (placed : loadImage arguments surroundings.files = .ok (memory, size))
    (performed : run arguments surroundings = some result)
    : ∃ session final,
        launch arguments surroundings memory size = some session
        ∧ Advances surroundings 1 arguments.advances session final
        ∧ result = {
            value := conclude arguments surroundings.files final
            trace := final.trace } := by
  cases launched : launch arguments surroundings memory size with
  | none =>
      simp [run, start, placed, new, launched] at performed
  | some session =>
      have started : start arguments surroundings
          = some { value := .ok session, trace := session.trace } := by
        simp [start, placed, new, launched]
      obtain ⟨final, advances, rfl⟩ :=
        (run_eq_some_iff started (underway_of_launch launched).list).mp performed
      exact ⟨session, final, rfl, advances, rfl⟩

end GraphicsEngine.Session
