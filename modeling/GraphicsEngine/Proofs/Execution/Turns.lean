import GraphicsEngine.Engine.Drain

/-! What one turn of the fetch cycle can do, what it leaves alone, and what a run of turns is made
of.
-/

namespace GraphicsEngine

namespace Execution

/-- All that a command can do to an execution. -/
inductive Performs (memory : Memory) (execution : Execution) : Reaction → Prop
  /-- Nothing but what is seen of it. -/
  | stays (seen : List Occurrence) : Performs memory execution { execution, trace := seen }
  | offsets (offset : Address) : Performs memory execution (execution.setOffset offset)
  /-- An END without an announcement counts the cycles so far. -/
  | counts (seen : List Occurrence)
    : Performs memory execution { execution := execution.charge, trace := seen }
  | jumps (target : Address) (masked : target.IsMasked) (mapped : memory.isMapped target)
    : Performs memory execution
        { execution := execution.transfer target, trace := [.event (.jump target)] }
  | calls (target : Address) (masked : target.IsMasked) (mapped : memory.isMapped target)
    (room : execution.list.stack.length < DisplayList.stackCapacity)
    : Performs memory execution
        { execution := Execution.transfer { execution with
            list := { execution.list with
              stack := Address.mask (execution.list.pc + 4) :: execution.list.stack } } target
          trace := [.event (.call target (Address.mask (execution.list.pc + 4)))] }
  | returns (address : Address) (outer : List Address)
    (stack : execution.list.stack = address :: outer)
    (mapped : memory.isMapped ((execution.list.pc &&& 0xF0000000) ||| address.mask))
    : Performs memory execution
        { execution := Execution.transfer
            { execution with list := { execution.list with stack := outer } }
            ((execution.list.pc &&& 0xF0000000) ||| address.mask)
          trace := [.event (.ret ((execution.list.pc &&& 0xF0000000) ||| address.mask))] }
  /-- A return to an address that is not mapped ends the list. -/
  | loses (address : Address) (outer : List Address) (seen : List Occurrence)
    (stack : execution.list.stack = address :: outer)
    (transferred : Execution)
    (same : transferred = Execution.transfer
      { execution with list := { execution.list with stack := outer } }
      ((execution.list.pc &&& 0xF0000000) ||| address.mask))
    : Performs memory execution
        { execution := { transferred with
            registers := { transferred.registers with finished := true } }
          trace := seen
          ending := some .aborted }
  | signals (announced : Word) (operand : UInt32)
    : Performs memory execution (execution.charge.signal announced operand)
  | finishes (announced : Word)
    : Performs memory execution (execution.charge.finish announced)

/-- Every command does one of these things, by cases on the command and on what it tests. -/
theorem performs_perform (memory : Memory) (execution : Execution) (difference : UInt32)
    (command : Command)
    : Performs memory execution (execution.perform memory difference command) := by
  cases command with
  | nop | signal | finish | render _ _ => exact .stays _
  | offset _ | origin => exact .offsets _
  | jump operand =>
      simp only [perform, jump]
      split
      · next mapped => exact .jumps _ (Address.isMasked_mask _) mapped
      · exact .stays _
  | call operand =>
      simp only [perform, call, DisplayList.push?]
      split
      · next mapped =>
        by_cases room : execution.list.stack.length < DisplayList.stackCapacity
        · simp only [if_pos room, Address.mask_mask]
          exact .calls _ (Address.isMasked_mask _) mapped room
        · simp only [if_neg room]
          exact .stays _
      · exact .stays _
  | ret =>
      simp only [perform, ret, DisplayList.pop?]
      cases stack : execution.list.stack with
      | nil => exact .stays _
      | cons address outer =>
          dsimp only
          split
          · next mapped => exact .returns address outer stack mapped
          · exact .loses address outer _ stack _ rfl
  | endMark operand =>
      simp only [perform, endMark]
      split
      · exact .signals _ _
      · exact .finishes _
      · exact .counts _

/-- What carrying out a fetched word leads to, once the word is kept and counted. -/
def react (memory : Memory) (execution : Execution) (word : Word)
    : Reaction :=
  (execution.recordWord word).perform memory (execution.cache.difference word)
    (Command.ofWord word)

/-- All that a turn of the fetch cycle can lead to. -/
inductive Turn (memory : Memory) (traceCommands : Bool) (execution : Execution) : Progress → Prop
  | stalls (stalled : execution.list.isStalled)
    : Turn memory traceCommands execution (.ended .stalled execution.charge [])
  | fails (waits : ¬execution.list.isStalled) (error : Memory.Error)
    (unreadable : memory.readWord execution.list.pc = .error error)
    : Turn memory traceCommands execution
        (.ended .aborted
          (charge { execution with registers := { execution.registers with finished := true } })
          [.notice (.unreadable execution.list.id execution.list.pc error)])
  | executes (waits : ¬execution.list.isStalled) (word : Word)
    (fetched : memory.readWord execution.list.pc = .ok word) (reaction : Reaction)
    (performs : Performs memory (execution.recordWord word) reaction)
    (continues : reaction.ending = none) (reacts : reaction = execution.react memory word)
    : Turn memory traceCommands execution
        (.running (reaction.execution.advance word)
          (execution.fetchTrace traceCommands word ++ reaction.trace))
  | ends (waits : ¬execution.list.isStalled) (word : Word)
    (fetched : memory.readWord execution.list.pc = .ok word) (reaction : Reaction)
    (performs : Performs memory (execution.recordWord word) reaction)
    (ending : Ending) (stops : reaction.ending = some ending)
    (reacts : reaction = execution.react memory word)
    : Turn memory traceCommands execution
        (.ended ending (reaction.execution.advance word).charge
          (execution.fetchTrace traceCommands word ++ reaction.trace))

/-- Every turn leads to one of these, by cases on what it tests. -/
theorem turn_step (memory : Memory) (traceCommands : Bool) (execution : Execution)
    : Turn memory traceCommands execution (execution.step memory traceCommands) := by
  unfold step
  split
  · next stalled => exact .stalls stalled
  · next waits =>
    split
    · next word fetched =>
      have performs := performs_perform memory (execution.recordWord word)
        (execution.cache.difference word) (Command.ofWord word)
      simp only [dispatch]
      split
      · next continues => exact .executes waits word fetched _ performs continues rfl
      · next ending stops => exact .ends waits word fetched _ performs ending stops rfl
    · next error unreadable => exact .fails waits error unreadable

theorem turn_of_step {memory : Memory} {traceCommands : Bool} {execution : Execution}
    {progress : Progress} (stepped : execution.step memory traceCommands = progress)
    : Turn memory traceCommands execution progress :=
  stepped ▸ turn_step memory traceCommands execution

-----------------------------------------------------------------------------------------
-- What a turn leaves alone
-----------------------------------------------------------------------------------------

end Execution

/-- A list and what has become of it: its number, where it begins, where it waits and its channel
are settled before it runs.
-/
structure DisplayList.Continues (earlier later : DisplayList) : Prop where
  id : later.id = earlier.id
  start : later.start = earlier.start
  stall : later.stall = earlier.stall
  channel : later.channel = earlier.channel

theorem DisplayList.Continues.refl (list : DisplayList)
    : list.Continues list :=
  ⟨rfl, rfl, rfl, rfl⟩

theorem DisplayList.Continues.trans {first second third : DisplayList}
    (earlier : first.Continues second) (later : second.Continues third)
    : first.Continues third :=
  ⟨later.id.trans earlier.id, later.start.trans earlier.start, later.stall.trans earlier.stall,
    later.channel.trans earlier.channel⟩

namespace Execution

/-- Raising an interrupt changes nothing of the list. -/
@[simp] theorem raise_list (execution : Execution)
    : execution.raise.1.list = execution.list := by
  unfold raise
  split <;> rfl

@[simp] theorem raise_registers (execution : Execution)
    : execution.raise.1.registers = execution.registers := by
  unfold raise
  split <;> rfl

/-- Raising an interrupt counts interrupts and nothing else. -/
theorem raise_stats (execution : Execution)
    : ∃ interrupts, execution.raise.1.stats = { execution.stats with interrupts } := by
  unfold raise
  split
  · exact ⟨_, rfl⟩
  · exact ⟨_, rfl⟩

variable {memory : Memory} {traceCommands : Bool}

/-- A command moves a list and may settle its fate, but leaves alone what was settled before. -/
theorem Performs.continues {execution : Execution} {reaction : Reaction}
    (performs : Performs memory execution reaction)
    : execution.list.Continues reaction.execution.list := by
  cases performs with
  | loses _ _ _ _ _ same =>
      rw [same]
      exact ⟨rfl, rfl, rfl, rfl⟩
  | signals | finishes =>
      refine ⟨?_, ?_, ?_, ?_⟩ <;> simp [signal, finish, charge]
  | _ => exact ⟨rfl, rfl, rfl, rfl⟩

/-- A command after which a list runs on has not changed its state. -/
theorem Performs.state {execution : Execution} {reaction : Reaction}
    (performs : Performs memory execution reaction) (continues : reaction.ending = none)
    : reaction.execution.list.state = execution.list.state := by
  cases performs with
  | loses | finishes => cases continues
  | signals => simp [signal, charge]
  | _ => rfl

/-- A command ends a list in one of two ways. -/
theorem Performs.ending {execution : Execution} {reaction : Reaction} {ending : Ending}
    (performs : Performs memory execution reaction) (stops : reaction.ending = some ending)
    : ending = .aborted ∨ ending = .completed := by
  cases performs with
  | loses => exact .inl (Option.some.inj stops).symm
  | finishes => exact .inr (Option.some.inj stops).symm
  | _ => cases stops

/-- A command counts interrupts and nothing else. -/
theorem Performs.stats {execution : Execution} {reaction : Reaction}
    (performs : Performs memory execution reaction)
    : ∃ interrupts, reaction.execution.stats = { execution.stats with interrupts } := by
  cases performs with
  | loses _ _ _ _ _ same =>
      subst same
      exact ⟨_, rfl⟩
  | signals | finishes => exact raise_stats _
  | _ => exact ⟨_, rfl⟩

/-- A turn after which a list runs on has read a word where the list was waiting for nothing. -/
theorem not_isStalled_of_running {execution next : Execution} {seen : List Occurrence}
    (stepped : execution.step memory traceCommands = .running next seen)
    : ¬execution.list.isStalled := by
  cases turn_of_step stepped with
  | executes waits => exact waits

theorem continues_of_running {execution next : Execution} {seen : List Occurrence}
    (stepped : execution.step memory traceCommands = .running next seen)
    : execution.list.Continues next.list := by
  cases turn_of_step stepped with
  | executes _ _ _ _ performs => exact performs.continues.trans ⟨rfl, rfl, rfl, rfl⟩

theorem state_of_running {execution next : Execution} {seen : List Occurrence}
    (stepped : execution.step memory traceCommands = .running next seen)
    : next.list.state = execution.list.state := by
  cases turn_of_step stepped with
  | executes _ _ _ _ performs continues => exact performs.state continues

/-- A turn after which a list runs on counts one command, and interrupts. -/
theorem stats_of_running {execution next : Execution} {seen : List Occurrence}
    (stepped : execution.step memory traceCommands = .running next seen)
    : ∃ interrupts, next.stats
        = { execution.stats with commands := execution.stats.commands + 1, interrupts } := by
  cases turn_of_step stepped with
  | executes _ _ _ _ performs => exact performs.stats

/-- The last turn counts no more than a command, and interrupts. -/
theorem stats_of_ended {execution last : Execution} {seen : List Occurrence} {ending : Ending}
    (ended : execution.step memory traceCommands = .ended ending last seen)
    : ∃ commands interrupts, last.stats = { execution.stats with commands, interrupts } := by
  cases turn_of_step ended with
  | stalls | fails => exact ⟨_, _, rfl⟩
  | ends _ _ _ _ performs => exact ⟨_, performs.stats⟩

theorem continues_of_ended {execution last : Execution} {seen : List Occurrence} {ending : Ending}
    (ended : execution.step memory traceCommands = .ended ending last seen)
    : execution.list.Continues last.list := by
  cases turn_of_step ended with
  | stalls | fails => exact .refl _
  | ends _ _ _ _ performs => exact performs.continues.trans ⟨rfl, rfl, rfl, rfl⟩

/-- A turn that finds the list stalled counts the cycles so far and does nothing else. -/
theorem of_stalled {execution last : Execution} {seen : List Occurrence}
    (ended : execution.step memory traceCommands = .ended .stalled last seen)
    : execution.list.isStalled ∧ last = execution.charge ∧ seen = [] := by
  cases turn_of_step ended with
  | stalls stalled => exact ⟨stalled, rfl, rfl⟩
  | ends _ _ _ _ performs _ stops =>
      rcases performs.ending stops with ended | ended <;> cases ended

-----------------------------------------------------------------------------------------
-- Runs
-----------------------------------------------------------------------------------------

/-- Turns that lead from one loop head to another: the executions at the loop heads on the way, the
first one included and the last one not, and what happened.
-/
inductive Passage (memory : Memory) (traceCommands : Bool)
    : Execution → List Execution → List Occurrence → Execution → Prop
  | here (execution : Execution) : Passage memory traceCommands execution [] [] execution
  | turn {execution next last : Execution} {heads : List Execution}
    {seen later : List Occurrence}
    (stepped : execution.step memory traceCommands = .running next seen)
    (passage : Passage memory traceCommands next heads later last)
    : Passage memory traceCommands execution (execution :: heads) (seen ++ later) last

theorem Passage.append {memory : Memory} {traceCommands : Bool} {first middle last : Execution}
    {heads others : List Execution} {seen more : List Occurrence}
    (earlier : Passage memory traceCommands first heads seen middle)
    (later : Passage memory traceCommands middle others more last)
    : Passage memory traceCommands first (heads ++ others) (seen ++ more) last := by
  induction earlier with
  | here => exact later
  | turn stepped _ ih =>
      rw [List.append_assoc]
      exact .turn stepped (ih later)

/-- What every turn keeps is kept on the way, by induction on the turns. -/
theorem Passage.keeps {memory : Memory} {traceCommands : Bool} {Holds : Execution → Prop}
    (kept : ∀ {execution next seen}, Holds execution
      → execution.step memory traceCommands = .running next seen → Holds next)
    {first last : Execution} {heads : List Execution} {seen : List Occurrence}
    (passage : Passage memory traceCommands first heads seen last) (holds : Holds first)
    : Holds last := by
  induction passage with
  | here => exact holds
  | turn stepped _ ih => exact ih (kept holds stepped)

theorem Passage.continues {memory : Memory} {traceCommands : Bool} {first last : Execution}
    {heads : List Execution} {seen : List Occurrence}
    (passage : Passage memory traceCommands first heads seen last)
    : first.list.Continues last.list := by
  induction passage with
  | here => exact .refl _
  | turn stepped _ ih => exact (continues_of_running stepped).trans ih

theorem Passage.state {memory : Memory} {traceCommands : Bool} {first last : Execution}
    {heads : List Execution} {seen : List Occurrence}
    (passage : Passage memory traceCommands first heads seen last)
    : last.list.state = first.list.state := by
  induction passage with
  | here => rfl
  | turn stepped _ ih => exact ih.trans (state_of_running stepped)

/-- A passage counts commands and interrupts and nothing else. -/
theorem Passage.stats {memory : Memory} {traceCommands : Bool} {first last : Execution}
    {heads : List Execution} {seen : List Occurrence}
    (passage : Passage memory traceCommands first heads seen last)
    : ∃ commands interrupts, last.stats = { first.stats with commands, interrupts } := by
  induction passage with
  | here => exact ⟨_, _, rfl⟩
  | turn stepped _ ih =>
      obtain ⟨_, counted⟩ := stats_of_running stepped
      obtain ⟨commands, interrupts, counts⟩ := ih
      exact ⟨commands, interrupts, by rw [counts, counted]⟩

/-- No loop head of a passage stands where the list waits. -/
theorem Passage.waits {memory : Memory} {traceCommands : Bool} {first last : Execution}
    {heads : List Execution} {seen : List Occurrence}
    (passage : Passage memory traceCommands first heads seen last)
    : ∀ head ∈ heads, head.list.pc ≠ first.list.stall := by
  induction passage with
  | here => simp
  | turn stepped _ ih =>
      intro head member
      rcases List.mem_cons.mp member with rfl | member
      · simpa [DisplayList.isStalled] using not_isStalled_of_running stepped
      · exact (continues_of_running stepped).stall ▸ ih head member

/-- Turns that lead from a loop head to the end of a list's time at the front, what happened on the
way, and fuel for every turn.
-/
def Runs (memory : Memory) (traceCommands : Bool) (fuel : Nat) (first : Execution)
    (ending : Ending) (last : Execution) (seen : List Occurrence)
    : Prop :=
  ∃ heads head early late,
    Passage memory traceCommands first heads early head
    ∧ head.step memory traceCommands = .ended ending last late
    ∧ heads.length < fuel
    ∧ seen = early ++ late

/-- Two stretches of what happened are added to a trace one after the other. -/
theorem append_append (trace : Trace) (earlier later : List Occurrence)
    : trace ++ earlier ++ later = trace ++ (earlier ++ later) :=
  Array.ext' (by simp)

/-- The run of a list, by induction on the fuel one way and on the passage the other. -/
theorem run_eq_some_iff {memory : Memory} {traceCommands : Bool} {fuel : Nat}
    {execution last : Execution} {trace after : Trace} {ending : Ending}
    : execution.run memory traceCommands fuel trace = some (ending, last, after)
      ↔ ∃ seen, Runs memory traceCommands fuel execution ending last seen
          ∧ after = trace ++ seen := by
  constructor
  · intro ran
    induction fuel generalizing execution trace with
    | zero => cases ran
    | succ fuel ih =>
        rw [run] at ran
        split at ran
        · next next seen stepped =>
          obtain ⟨_, ⟨heads, head, early, late, passage, ended, fueled, rfl⟩, rfl⟩ := ih ran
          exact ⟨_, ⟨execution :: heads, head, seen ++ early, late, .turn stepped passage, ended,
            Nat.succ_lt_succ fueled, rfl⟩, by rw [append_append, List.append_assoc]⟩
        · next stepped =>
          cases ran
          exact ⟨_, ⟨[], execution, [], _, .here execution, stepped, Nat.succ_pos fuel, rfl⟩, rfl⟩
  · intro holds
    obtain ⟨_, ⟨heads, head, early, late, passage, ended, fueled, rfl⟩, rfl⟩ := holds
    induction passage generalizing fuel trace with
    | here execution =>
        cases fuel with
        | zero => cases fueled
        | succ fuel => simp [run, ended]
    | turn stepped passage ih =>
        cases fuel with
        | zero => cases fueled
        | succ fuel =>
            rw [run, stepped]
            dsimp only
            rw [ih ended (Nat.lt_of_succ_lt_succ fueled), append_append, List.append_assoc]

variable {fuel : Nat} {first last : Execution} {ended : Ending} {seen : List Occurrence}

/-- A list runs so whatever happened before. -/
theorem Runs.run (runs : Runs memory traceCommands fuel first ended last seen) (trace : Trace)
    : first.run memory traceCommands fuel trace = some (ended, last, trace ++ seen) :=
  run_eq_some_iff.mpr ⟨seen, runs, rfl⟩

theorem Runs.continues (runs : Runs memory traceCommands fuel first ended last seen)
    : first.list.Continues last.list := by
  obtain ⟨_, _, _, _, passage, stepped, -, -⟩ := runs
  exact passage.continues.trans (continues_of_ended stepped)

/-- A list that stands where it waits does not run at all. -/
theorem runs_of_stalled (stalled : first.list.isStalled) (fueled : 0 < fuel)
    : Runs memory traceCommands fuel first .stalled first.charge [] := by
  refine ⟨[], first, [], [], .here first, ?_, fueled, rfl⟩
  rw [step, if_pos stalled]

/-- A run begins one turn earlier. -/
theorem Runs.turn {next : Execution} {later : List Occurrence}
    (stepped : first.step memory traceCommands = .running next seen)
    (runs : Runs memory traceCommands fuel next ended last later)
    : Runs memory traceCommands (fuel + 1) first ended last (seen ++ later) := by
  obtain ⟨heads, head, early, late, passage, stops, fueled, rfl⟩ := runs
  exact ⟨first :: heads, head, seen ++ early, late, .turn stepped passage, stops,
    Nat.succ_lt_succ fueled, by rw [List.append_assoc]⟩

/-- A run counts commands and interrupts and nothing else. -/
theorem Runs.stats (runs : Runs memory traceCommands fuel first ended last seen)
    : ∃ commands interrupts, last.stats = { first.stats with commands, interrupts } := by
  obtain ⟨_, _, _, _, passage, stepped, -, -⟩ := runs
  obtain ⟨_, _, counted⟩ := passage.stats
  obtain ⟨more, others, counts⟩ := stats_of_ended stepped
  exact ⟨more, others, by rw [counts, counted]⟩

/-- A list that has stalled waits where it stands, in the state it ran in. -/
theorem Runs.stalled (runs : Runs memory traceCommands fuel first .stalled last seen)
    : last.list.isStalled ∧ last.list.state = first.list.state := by
  obtain ⟨_, _, _, _, passage, stepped, -, -⟩ := runs
  obtain ⟨stalled, rfl, -⟩ := of_stalled stepped
  exact ⟨stalled, passage.state⟩

/-- A run ends in one of three ways: a list that could not run at all has not run. -/
theorem Runs.ending (runs : Runs memory traceCommands fuel first ended last seen)
    : ended = .stalled ∨ ended = .completed ∨ ended = .aborted := by
  obtain ⟨_, _, _, _, -, stepped, -, -⟩ := runs
  cases turn_of_step stepped with
  | stalls => exact .inl rfl
  | fails => exact .inr (.inr rfl)
  | ends _ _ _ _ performs _ stops => exact .inr (performs.ending stops).symm

/-- A run that begins with a passage goes on from where the passage leads, since every turn leads to
one place only.
-/
theorem Runs.behind {middle : Execution} {heads : List Execution} {early : List Occurrence}
    (passage : Passage memory traceCommands first heads early middle)
    (runs : Runs memory traceCommands fuel first ended last seen)
    : ∃ late, Runs memory traceCommands fuel middle ended last late ∧ seen = early ++ late := by
  induction passage generalizing seen with
  | here => exact ⟨seen, runs, rfl⟩
  | turn stepped _ ih =>
      obtain ⟨heads, head, before, after, passage, stops, fueled, rfl⟩ := runs
      cases passage with
      | here =>
          rw [stepped] at stops
          cases stops
      | turn stepped' passage =>
          rw [stepped] at stepped'
          cases stepped'
          obtain ⟨late, runs, same⟩ :=
            ih ⟨_, head, _, after, passage, stops, Nat.lt_of_succ_lt fueled, rfl⟩
          exact ⟨late, runs, by rw [List.append_assoc, List.append_assoc, same]⟩

/-- A passage leaves the next command at a masked address. -/
theorem Passage.isMasked {heads : List Execution}
    (passage : Passage memory traceCommands first heads seen last)
    (masked : first.list.pc.IsMasked)
    : last.list.pc.IsMasked := by
  induction passage with
  | here => exact masked
  | turn stepped _ ih =>
      refine ih ?_
      cases turn_of_step stepped with
      | executes => exact Address.isMasked_mask _

theorem Runs.isMasked (runs : Runs memory traceCommands fuel first ended last seen)
    (masked : first.list.pc.IsMasked)
    : last.list.pc.IsMasked := by
  obtain ⟨_, _, _, _, passage, stepped, -, -⟩ := runs
  cases turn_of_step stepped with
  | stalls | fails => exact passage.isMasked masked
  | ends => exact Address.isMasked_mask _

end Execution

end GraphicsEngine
