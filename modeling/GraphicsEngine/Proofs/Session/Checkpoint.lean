import GraphicsEngine.Proofs.Session.Progress
import GraphicsEngine.Proofs.Session.Summary

/-! A session that is saved and gone on with in another session comes to the same as one session
that does it all. The summaries of its two parts add up to that of the whole.
-/

namespace GraphicsEngine.Session

-----------------------------------------------------------------------------------------
-- Sessions side by side
-----------------------------------------------------------------------------------------

/-- The other session has done what the session has, but for what was counted and shown in the past.
-/
structure Rejoins (past : Stats) (shown : List Occurrence) (session other : State)
    : Prop where
  engine : session.engine.Alike (.clocks past) other.engine
  queue : other.engine.queue = session.engine.queue
  memory : other.memory = session.memory
  effects
    : Occurrence.effects session.trace.toList = shown ++ Occurrence.effects other.trace.toList

variable {past : Stats} {shown : List Occurrence} {arguments : Arguments}
  {surroundings elsewhere : Surroundings} {id : ListId} {stalls : List Address} {memory : Memory}
  {size : UInt32} {session other final reached : State}

/-- A step that a session takes is taken by one that rejoins it, at any time. -/
theorem Rejoins.moved (rejoins : Rejoins past shown session other)
    (enough : surroundings.fuel ≤ elsewhere.fuel) {stall : Address} {outcome : Outcome Bool}
    (moved : session.engine.moveStall (session.host surroundings) id stall = some outcome)
    : ∃ likewise,
        other.engine.moveStall (other.host elsewhere) id stall = some likewise
        ∧ Rejoins past shown (session.moved id stall outcome) (other.moved id stall likewise) := by
  have memory : (other.host elsewhere).memory = (session.host surroundings).memory :=
    rejoins.memory
  obtain ⟨likewise, moved, alike⟩ :=
    rejoins.engine.moveStall_clocks rejoins.queue memory enough moved
  refine ⟨likewise, moved, alike.engine, alike.queue, rejoins.memory, ?_⟩
  have before := rejoins.effects
  have behind := alike.effects
  simp [State.moved, before, behind]

/-- A session that rejoins another one comes along with it, step by step. -/
theorem Advances.rejoins (advances : Advances surroundings id stalls session final)
    (rejoins : Rejoins past shown session other) (enough : surroundings.fuel ≤ elsewhere.fuel)
    : ∃ reached, Advances elsewhere id stalls other reached ∧ Rejoins past shown final reached := by
  induction advances generalizing other with
  | here => exact ⟨other, .here other, rejoins⟩
  | move moved _ ih =>
      obtain ⟨likewise, moved, rejoins⟩ := rejoins.moved enough moved
      obtain ⟨reached, advances, rejoins⟩ := ih rejoins
      exact ⟨reached, .move moved advances, rejoins⟩

/-- Sessions that both come to an end do so side by side, however much fuel each of them has. -/
theorem Rejoins.advances (rejoins : Rejoins past shown session other)
    (advances : Advances surroundings id stalls session final)
    (advances' : Advances elsewhere id stalls other reached)
    : Rejoins past shown final reached := by
  let more := max surroundings.fuel elsewhere.fuel
  obtain ⟨same, along, rejoins⟩ :=
    advances.rejoins rejoins (show surroundings.fuel ≤ { elsewhere with fuel := more }.fuel from
      Nat.le_max_left ..)
  rw [(advances'.refueled (Nat.le_max_right ..)).unique along] at rejoins
  exact rejoins

/-- Sessions with the same list begin side by side. -/
theorem rejoins_of_launch (launched : launch arguments surroundings memory size = some session)
    (launched' : launch arguments elsewhere memory size = some other)
    : Rejoins {} [] session other := by
  obtain ⟨outcome, joined, rfl⟩ := launch_eq_some_iff.mp launched
  obtain ⟨likewise, joined', rfl⟩ := launch_eq_some_iff.mp launched'
  have alike := Engine.enqueue_clocks joined joined' rfl
  exact ⟨alike.engine, alike.queue, rfl, alike.effects.symm⟩

-----------------------------------------------------------------------------------------
-- Going on from a saved state
-----------------------------------------------------------------------------------------

/-- The arguments of a session that goes on from a state that another one has saved. Neither a list
nor its addresses are looked at then.
-/
structure Arguments.GoesOn (arguments continued : Arguments) (path : String)
    : Prop where
  loadAddress : continued.loadAddress = arguments.loadAddress
  ramSize : continued.ramSize = arguments.ramSize
  noInterrupts : continued.noInterrupts = arguments.noInterrupts
  traceCommands : continued.traceCommands = arguments.traceCommands
  loadState : continued.loadState = some path
  saveState : continued.saveState = none

variable {continued : Arguments} {path : String} {files : Files} {bytes : Bytes}

/-- Sessions that go on have the first engine of those that they go on with. -/
theorem Arguments.GoesOn.firstEngine_eq (goesOn : arguments.GoesOn continued path)
    : firstEngine continued = firstEngine arguments := by
  rw [firstEngine, firstEngine, goesOn.noInterrupts, goesOn.traceCommands]

/-- A session whose list is still in the queue has no other list there. -/
theorem Underway.alone (underway : Underway arguments session)
    (queued : 1 ∈ Queue.ids session.engine.queue)
    : ∃ list, session.engine.queue = [list] ∧ list.id = 1 := by
  rcases List.suffix_cons_iff.mp underway.ids with same | none
  · exact List.map_eq_singleton_iff.mp same
  · rw [List.suffix_nil.mp none] at queued
    cases queued

/-- The list that a session finds again in a saved state is the one that it was about. -/
theorem Underway.about (underway : Underway arguments session)
    (queued : 1 ∈ Queue.ids session.engine.queue)
    : session.engine.current.or (session.engine.queue.head?.map (·.id)) = some 1 := by
  obtain ⟨list, alone, id⟩ := underway.alone queued
  cases current : session.engine.current with
  | none => simp [alone, id]
  | some other =>
      have member := underway.reachable.reachable.sound.current other current
      simp only [Queue.ids, alone, List.map_singleton, List.mem_singleton] at member
      simp [member, id]

/-- What a session has saved is taken on by the first engine of one that goes on from there. -/
theorem Underway.exists_load (underway : Underway arguments session)
    (queued : 1 ∈ Queue.ids session.engine.queue) (saved : session.engine.save = .ok bytes)
    (goesOn : arguments.GoesOn continued path)
    : ∃ outcome,
        (firstEngine continued).load bytes = .ok outcome
        ∧ outcome.engine = { session.engine with stats := {} }
        ∧ Occurrence.effects outcome.trace.toList = [] := by
  obtain ⟨list, alone, -⟩ := underway.alone queued
  have few : session.engine.queue.length ≤ Snapshot.listLimit := by
    rw [alone]
    exact show 1 ≤ Snapshot.listLimit by decide
  have none : session.engine.interrupts.pending.size ≤ Snapshot.interruptLimit := by
    rw [underway.interrupts]
    exact Nat.zero_le _
  obtain ⟨_, outcome, saved', loaded⟩ :=
    (Engine.restorable_iff_within_limits underway.reachable (firstEngine continued)).mpr ⟨few, none⟩
  cases saved.symm.trans saved'
  refine ⟨outcome, loaded, ?_, ?_⟩
  · have config : (firstEngine continued).config = session.engine.config := by
      rw [goesOn.firstEngine_eq, underway.reachable.reachable.config_eq]
    rw [Engine.load_of_save underway.reachable.reachable.sound saved loaded, config]
    rfl
  · obtain ⟨restoration, _, rfl, -⟩ := Engine.of_load loaded
    simp only [Engine.adoptTrace]
    split <;> rfl

/-- A session that stands where another one does, with nothing counted and other things shown. -/
def State.anew (session : State) (trace : Trace)
    : State :=
  { engine := { session.engine with stats := {} }
    memory := session.memory
    list := session.list
    trace }

/-- A session that goes on from what another one has saved stands where that one stood, with nothing
counted and shown yet. The switch for interrupts stands in the saved state as the arguments want it.
-/
theorem resume_of_save (underway : Underway arguments session)
    (queued : 1 ∈ Queue.ids session.engine.queue) (saved : session.engine.save = .ok bytes)
    (goesOn : arguments.GoesOn continued path) (read : files.read path = .ok bytes)
    : ∃ trace,
        resume continued files session.memory path = { value := .ok (session.anew trace), trace }
        ∧ Occurrence.effects trace.toList = [] := by
  obtain ⟨outcome, loaded, restored, silent⟩ := underway.exists_load queued saved goesOn
  have switched : (if continued.noInterrupts then outcome.engine.setInterrupts false
      else outcome.engine) = { session.engine with stats := {} } := by
    rw [restored]
    split
    · next off =>
      have enabled : session.engine.interrupts.enabled = false := by
        rw [underway.interrupts, ← goesOn.firstEngine_eq]
        simp [firstEngine, Engine.initial, off]
      simp [Engine.setInterrupts, ← enabled]
    · rfl
  let notice : Occurrence := .notice (.restored session.engine.queue.length (some 1))
  refine ⟨outcome.trace.push notice, ?_, ?_⟩
  · rw [resume, read]
    simp only [loaded, switched, underway.about queued, State.anew, underway.list]
    rfl
  · simp [silent, notice]

-----------------------------------------------------------------------------------------
-- Two sessions and one
-----------------------------------------------------------------------------------------

/-- What is saved is what the engine saves in the end, and the summary is of the same engine. -/
theorem conclude_saved {report : Report} (concluded : conclude arguments files session = .ok report)
    (saved : report.saved = some (path, bytes))
    : session.engine.save = .ok bytes
      ∧ report.summary = .collect session.engine session.list session.trace := by
  rw [conclude] at concluded
  split at concluded
  · cases concluded
    cases saved
  · split at concluded
    · cases concluded
    · split at concluded
      · cases concluded
      · next written =>
        cases concluded
        cases saved
        exact ⟨written, rfl⟩

/-- A session that is not to be saved is concluded with its summary. -/
theorem conclude_of_unsaved (unsaved : arguments.saveState = none) (files : Files)
    (session : State)
    : conclude arguments files session
      = .ok {
          summary := .collect session.engine session.list session.trace
          saved := none } := by
  rw [conclude, unsaved]

/-- Where a session has been saved, one that goes on from there stands as one does that has come
there and was not saved.
-/
theorem rejoins_of_resume (rejoins : Rejoins {} [] session other) {trace : Trace}
    (silent : Occurrence.effects trace.toList = [])
    : Rejoins other.engine.stats (Occurrence.effects other.trace.toList) session (other.anew trace)
      where
  engine := {
    rejoins.engine with
    stats := by
      have counted : session.engine.stats = Stats.add {} other.engine.stats := rejoins.engine.stats
      rw [counted, Stats.zero_add]
      exact (Stats.add_zero _).symm }
  queue := rejoins.queue
  memory := rejoins.memory
  effects := by
    simp only [State.anew, silent, List.append_nil]
    exact rejoins.effects

/-- A session with a new list that is saved while the list is still in the queue, and a second one
that goes on from there, come to the same as a single one that does it all: where the list and the
queue stand in the end is the same, and what was delivered, handed to the renderer and counted in
the two adds up to what was in the single one. The second session ends if it has as much fuel as
the single one. Clocks may differ between the three, and so may fuel.
-/
theorem run_joins {first later whole : Surroundings} {report : Report} {trace : Trace}
    {single : Result Report} (new : arguments.loadState = none)
    (saving : run arguments first = some { value := .ok report, trace })
    (saved : report.saved = some (path, bytes))
    (queued : ∃ id ∈ report.summary.list, id ∈ Queue.ids report.summary.queue)
    (goesOn : arguments.GoesOn continued path) (written : later.files.read path = .ok bytes)
    (image : later.files.read continued.image = first.files.read arguments.image)
    (image' : whole.files.read arguments.image = first.files.read arguments.image)
    (atOnce : run
      { arguments with
        advances := arguments.advances ++ continued.advances
        saveState := none } whole
      = some single)
    : ∃ all,
        single.value = .ok all
        ∧ (∀ resumed, run continued later = some resumed
          → ∃ second, resumed.value = .ok second
              ∧ report.summary.Joins second.summary all.summary)
        ∧ (whole.fuel ≤ later.fuel → ∃ resumed, run continued later = some resumed) := by
  let together : Arguments :=
    { arguments with
      advances := arguments.advances ++ continued.advances
      saveState := none }
  obtain ⟨memory, size, placed⟩ := exists_loadImage_of_run saving
  obtain ⟨session, middle, launched, advances, ended⟩ := of_run_new new placed saving
  have placed' : loadImage together whole.files = .ok (memory, size) :=
    loadImage_of_same placed image' rfl rfl
  have new' : together.loadState = none := new
  obtain ⟨other, last, launched', advances', ended'⟩ := of_run_new new' placed' atOnce
  obtain ⟨between, before, behind⟩ := advances'.split
  have rejoins := (rejoins_of_launch launched' launched).advances before advances
  have underway := advances.underway (underway_of_launch launched)
  obtain ⟨saved, summary⟩ := conclude_saved (congrArg Result.value ended).symm saved
  have queued : 1 ∈ Queue.ids middle.engine.queue := by
    obtain ⟨id, about, member⟩ := queued
    rw [summary] at about member
    cases underway.list.symm.trans about
    exact member
  have kept : middle.memory = memory := by
    obtain ⟨_, -, rfl⟩ := launch_eq_some_iff.mp launched
    exact advances.same.1
  have placed'' : loadImage continued later.files = .ok (middle.memory, size) :=
    kept ▸ loadImage_of_same placed image goesOn.loadAddress goesOn.ramSize
  obtain ⟨trace', resumes, silent⟩ := resume_of_save underway queued saved goesOn written
  have started : start continued later
      = some { value := .ok (middle.anew trace'), trace := trace' } := by
    simp only [start, placed'', goesOn.loadState, resumes]
  have about : (middle.anew trace').list = some 1 := underway.list
  have rejoins' := rejoins_of_resume rejoins silent
  have concluded : single.value = .ok {
      summary := .collect last.engine last.list last.trace
      saved := none } := by
    have unsaved : together.saveState = none := rfl
    rw [ended']
    exact conclude_of_unsaved unsaved whole.files last
  refine ⟨_, concluded, fun resumed ran => ?_, fun enough => ?_⟩
  · obtain ⟨final, along, rfl⟩ := (run_eq_some_iff started about).mp ran
    have joined := rejoins'.advances behind along
    have same : final.list = last.list := by
      rw [along.same.2, about, advances'.same.2, (underway_of_launch launched').list]
    refine ⟨_, conclude_of_unsaved goesOn.saveState later.files final, ?_⟩
    rw [summary, same]
    exact Summary.joins_collect joined.engine joined.queue joined.effects _ _
  · obtain ⟨reached, along, -⟩ := behind.rejoins rejoins' enough
    exact ⟨_, (run_eq_some_iff started about).mpr ⟨reached, along, rfl⟩⟩

/-- Two commands for the renderer, an interrupt and the end. -/
def twoCommands : List Word :=
  [0x04000001, 0x04000002, 0x0F000010, 0x0C000000]

/-- An image with these words, and another file. -/
def withTwoCommands (bytes : Bytes) (clock : Nat → UInt64)
    : Surroundings :=
  { files := {
      read := fun path => .ok (if path = "list.bin" then Memory.wordBytes twoCommands else bytes)
      create := fun _ => .ok () }
    clock
    fuel := 16 }

/-- The list is made to wait behind its first command, and the state is saved. -/
def pausing : Arguments :=
  { image := "list.bin", stall := some 0x08000004, channel := 0, saveState := some "ge.snap" }

/-- The list is let go on to its end from a saved state. -/
def goingOn : Arguments :=
  { image := "list.bin", advances := [0x08000010], loadState := some "ge.snap" }

/-- The list is made to wait behind its first command, and let go on to its end. -/
def pausingUnsaved : Arguments :=
  { pausing with advances := [0x08000010], saveState := none }

/-- Two sessions with a saved state between them come to the same as one. -/
theorem run_joins_pausing
    : ∃ report trace bytes single all resumed second,
        run pausing (withTwoCommands [] fun _ => 7) = some { value := .ok report, trace }
        ∧ report.saved = some ("ge.snap", bytes)
        ∧ (∃ id ∈ report.summary.list, id ∈ Queue.ids report.summary.queue)
        ∧ pausing.GoesOn goingOn "ge.snap"
        ∧ run pausingUnsaved (withTwoCommands [] UInt64.ofNat) = some single
        ∧ single.value = .ok all
        ∧ run goingOn (withTwoCommands bytes fun _ => 9) = some resumed
        ∧ resumed.value = .ok second
        ∧ report.summary.Joins second.summary all.summary
        ∧ all.summary.forwarded = [("PRIM", 2)]
        ∧ all.summary.interrupts = [⟨1, 0x0800000C, 0, 0x10⟩] := by
  have known : (run pausing (withTwoCommands [] fun _ => 7)).map (fun result =>
      result.value.toOption.map fun report =>
        (report.saved.map (·.1), report.summary.list, Queue.ids report.summary.queue))
      = some (some (some "ge.snap", some 1, [1])) := by decide +kernel
  have known' : (run pausingUnsaved (withTwoCommands [] UInt64.ofNat)).map (fun result =>
      result.value.toOption.map fun report => (report.summary.forwarded, report.summary.interrupts))
      = some (some ([("PRIM", 2)], [⟨1, 0x0800000C, 0, 0x10⟩])) := by decide +kernel
  obtain ⟨⟨_ | report, trace⟩, saving, known⟩ := Option.map_eq_some_iff.mp known
  · cases known
  obtain ⟨⟨_ | all, _⟩, ran, known'⟩ := Option.map_eq_some_iff.mp known'
  · cases known'
  simp only [Except.toOption, Option.map_some, Option.some.injEq, Prod.mk.injEq] at known known'
  obtain ⟨named, list, ids⟩ := known
  obtain ⟨⟨_, bytes⟩, saved, rfl⟩ := Option.map_eq_some_iff.mp named
  have queued : ∃ id ∈ report.summary.list, id ∈ Queue.ids report.summary.queue :=
    ⟨1, list, by simp [ids]⟩
  have goesOn : pausing.GoesOn goingOn "ge.snap" := ⟨rfl, rfl, rfl, rfl, rfl, rfl⟩
  let later := withTwoCommands bytes fun _ => 9
  have written : later.files.read "ge.snap" = .ok bytes := by simp [later, withTwoCommands]
  have image (other : Bytes) (clock : Nat → UInt64)
      : (withTwoCommands other clock).files.read "list.bin"
        = (withTwoCommands [] fun _ => 7).files.read "list.bin" := by
    simp [withTwoCommands]
  have new : pausing.loadState = none := rfl
  obtain ⟨_, whole, joins, ends⟩ :=
    run_joins new saving saved queued goesOn written (image _ _) (image _ _) ran
  cases whole
  obtain ⟨resumed, resumes⟩ := ends (Nat.le_refl _)
  obtain ⟨second, succeeds, joins⟩ := joins resumed resumes
  exact ⟨report, trace, bytes, _, all, resumed, second, saving, saved, queued, goesOn, ran, rfl,
    resumes, succeeds, joins, known'.1, known'.2⟩

end GraphicsEngine.Session
