import GraphicsEngine.Proofs.Effects
import GraphicsEngine.Proofs.Execution.Turns

/-! Executions that a list cannot tell apart. What has been counted so far, what the registers hold
that no command reads, and where the list waits next may differ; all that is done and all that is
seen of it is the same.
-/

namespace GraphicsEngine

-----------------------------------------------------------------------------------------
-- What is overlooked
-----------------------------------------------------------------------------------------

/-- The counters over two stretches of time. -/
def Stats.add (earlier later : Stats)
    : Stats :=
  { started := earlier.started + later.started
    completed := earlier.completed + later.completed
    aborted := earlier.aborted + later.aborted
    stalls := earlier.stalls + later.stalls
    commands := earlier.commands + later.commands
    interrupts := earlier.interrupts + later.interrupts
    totalCycles := earlier.totalCycles + later.totalCycles }

/-- Counters add up in any grouping, each by the law of its numbers. -/
theorem Stats.add_assoc (first second third : Stats)
    : (first.add second).add third = first.add (second.add third) := by
  simp [add, Nat.add_assoc, UInt64.add_assoc]

@[simp] theorem Stats.add_zero (stats : Stats)
    : stats.add {} = stats := by
  simp [add]

theorem Stats.add_command (stats : Stats)
    : stats.add { commands := 1 } = { stats with commands := stats.commands + 1 } := by
  simp [add]

theorem Stats.add_interrupt (stats : Stats)
    : stats.add { interrupts := 1 } = { stats with interrupts := stats.interrupts + 1 } := by
  simp [add]

/-- The SIGNAL or FINISH that the next END would carry out, if the word is one. -/
def Word.announcement? (word : Word)
    : Option Word :=
  if word.opcode = Opcode.signal ∨ word.opcode = Opcode.finish then some word else none

/-- The start of a turn at the front is no announcement. -/
theorem Word.announcement?_zero
    : announcement? 0 = none := by
  decide

/-- A word that announces something is what it announces. -/
theorem Word.eq_of_announcement? {word announced : Word}
    (announces : word.announcement? = some announced)
    : word = announced := by
  unfold announcement? at announces
  split at announces
  · exact Option.some.inj announces
  · cases announces

/-- Which differences are overlooked: between the registers while no list runs, between the
registers of a running list, and between the counters. What a running list reads has to be the
same, and what it changes has to keep the differences such.
-/
structure Oversight where
  between : Registers → Registers → Prop
  during : Registers → Registers → Prop
  counted : Stats → Stats → Prop
  offset {registers others} : during registers others → others.offset = registers.offset
  announcement {registers others} : during registers others
    → Word.announcement? others.previous = Word.announcement? registers.previous
  charge {registers others} (pc checkpoint) : during registers others
    → during (registers.charge pc checkpoint) (others.charge pc checkpoint)
  setOffset {registers others} (offset) : during registers others
    → during { registers with offset } { others with offset }
  setPrevious {registers others} (previous) : during registers others
    → during { registers with previous } { others with previous }
  finish {registers others} : during registers others
    → during { registers with finished := true } { others with finished := true }
  add {stats others} (growth) : counted stats others
    → counted (stats.add growth) (others.add growth)
  refl (registers) : between registers registers
  takeUp {registers others} (startingTicks) : between registers others
    → between { registers with startingTicks, cycles := 0 }
        { others with startingTicks, cycles := 0 }
  present {registers others} : between registers others
    → between { registers with previous := 0, finished := false, offset := 0 }
        { others with previous := 0, finished := false, offset := 0 }
  launch {registers others} (checkpoint) : between registers others
    → during { registers with previous := 0, finished := false, offset := 0, checkpoint }
        { others with previous := 0, finished := false, offset := 0, checkpoint }
  land {registers others} : during registers others → between registers others
  settle {registers others stats counts} : between registers others → counted stats counts
    → counted (stats.add { totalCycles := registers.cycles })
        (counts.add { totalCycles := others.cycles })

/-- Two executions between which there are only overlooked differences, apart from where the lists
wait.
-/
structure Execution.Alike (oversight : Oversight) (left right : Execution)
    : Prop where
  list : right.list = { left.list with stall := right.list.stall }
  registers : oversight.during left.registers right.registers
  cache : right.cache = left.cache
  interrupts : right.interrupts = left.interrupts
  stats : oversight.counted left.stats right.stats

/-- Two reactions that lead to like executions, with the same effects. -/
structure Reaction.Alike (oversight : Oversight) (left right : Reaction)
    : Prop where
  execution : left.execution.Alike oversight right.execution
  effects : Occurrence.effects right.trace = Occurrence.effects left.trace
  ending : right.ending = left.ending

/-- Two turns of the fetch cycle that lead to like executions, or end alike. -/
inductive Progress.Alike (oversight : Oversight)
    : Progress → Progress → Prop
  | running {left right seen others} (alike : left.Alike oversight right)
    (effects : Occurrence.effects others = Occurrence.effects seen)
    : Progress.Alike oversight (.running left seen) (.running right others)
  | ended {ending left right seen others} (alike : left.Alike oversight right)
    (effects : Occurrence.effects others = Occurrence.effects seen)
    : Progress.Alike oversight (.ended ending left seen) (.ended ending right others)

-----------------------------------------------------------------------------------------
-- Commands
-----------------------------------------------------------------------------------------

namespace Execution

variable {oversight : Oversight} {left right : Execution} {memory other : Memory}

theorem Alike.target (alike : left.Alike oversight right) (operand : UInt32)
    : right.target operand = left.target operand := by
  rw [Execution.target, Execution.target, alike.cache, oversight.offset alike.registers]

theorem Alike.pc (alike : left.Alike oversight right)
    : right.list.pc = left.list.pc := by
  rw [alike.list]

theorem Alike.transfer (alike : left.Alike oversight right) (target : Address)
    : (left.transfer target).Alike oversight (right.transfer target) where
  list := by
    simp only [Execution.transfer]
    rw [alike.list]
  registers := by
    simp only [Execution.transfer, alike.pc]
    exact oversight.charge _ _ alike.registers
  cache := alike.cache
  interrupts := alike.interrupts
  stats := alike.stats

theorem Alike.jump (alike : left.Alike oversight right)
    (mapped : other.isMapped = memory.isMapped) (operand : UInt32)
    : (left.jump memory operand).Alike oversight (right.jump other operand) := by
  simp only [Execution.jump, alike.target, mapped]
  split
  · exact ⟨alike.transfer _, rfl, rfl⟩
  · exact ⟨alike, rfl, rfl⟩

theorem Alike.withList (alike : left.Alike oversight right) {list other : DisplayList}
    (same : other = { list with stall := other.stall })
    : Execution.Alike oversight { left with list } { right with list := other } :=
  { alike with list := same }

theorem Alike.push (alike : left.Alike oversight right) (address : Address)
    : right.list.push? address
      = (left.list.push? address).map ({ · with stall := right.list.stall }) := by
  rw [DisplayList.push?, DisplayList.push?, alike.list]
  split <;> rfl

theorem Alike.call (alike : left.Alike oversight right)
    (mapped : other.isMapped = memory.isMapped) (operand : UInt32)
    : (left.call memory operand).Alike oversight (right.call other operand) := by
  simp only [Execution.call, alike.target, alike.pc, alike.push, mapped]
  split
  · cases left.list.push? _ with
    | none => exact ⟨alike, rfl, rfl⟩
    | some list => exact ⟨(alike.withList rfl).transfer _, rfl, rfl⟩
  · exact ⟨alike, rfl, rfl⟩

theorem Alike.finished (alike : left.Alike oversight right)
    : Execution.Alike oversight
        { left with registers := { left.registers with finished := true } }
        { right with registers := { right.registers with finished := true } } :=
  { alike with registers := oversight.finish alike.registers }

theorem Alike.ret (alike : left.Alike oversight right)
    (mapped : other.isMapped = memory.isMapped)
    : (left.ret memory).Alike oversight (right.ret other) := by
  have stack : right.list.stack = left.list.stack := by rw [alike.list]
  simp only [Execution.ret, DisplayList.pop?, stack]
  cases left.list.stack with
  | nil => exact ⟨alike, rfl, rfl⟩
  | cons address outer =>
      have popped : Execution.Alike oversight
          { left with list := { left.list with stack := outer } }
          { right with list := { right.list with stack := outer } } :=
        alike.withList (by rw [alike.list])
      have target : (right.list.pc &&& 0xF0000000) ||| address.mask
          = (left.list.pc &&& 0xF0000000) ||| address.mask := by rw [alike.pc]
      simp only [target, mapped]
      split
      · exact ⟨popped.transfer _, rfl, rfl⟩
      · exact ⟨(popped.transfer _).finished, rfl, rfl⟩

theorem Alike.raise (alike : left.Alike oversight right)
    : left.raise.1.Alike oversight right.raise.1 ∧ right.raise.2 = left.raise.2 := by
  have channel : right.list.channel = left.list.channel := by rw [alike.list]
  have id : right.list.id = left.list.id := by rw [alike.list]
  have token : right.list.token = left.list.token := by rw [alike.list]
  simp only [Execution.raise, channel, id, token, alike.pc, alike.interrupts]
  split
  · exact ⟨alike, rfl⟩
  · refine ⟨{ alike with interrupts := rfl, stats := ?_ }, rfl⟩
    simp only [← Stats.add_interrupt]
    exact oversight.add _ alike.stats

theorem Alike.signal (alike : left.Alike oversight right) (announced : Word)
    (operand : UInt32)
    : (left.signal announced operand).Alike oversight (right.signal announced operand) := by
  have id : right.list.id = left.list.id := by rw [alike.list]
  have marked : Execution.Alike oversight
      { left with list := { left.list with
        token := (Word.low announced).toUInt32, signal := Word.middle announced } }
      { right with list := { right.list with
        token := (Word.low announced).toUInt32, signal := Word.middle announced } } :=
    alike.withList (by rw [alike.list])
  obtain ⟨raised, seen⟩ := marked.raise
  let event := Occurrence.event
    (.signal (Word.middle announced) (Word.low announced) (Word.low operand))
  exact ⟨raised, congrArg (fun later => Occurrence.effects (event :: later)) seen, rfl⟩

theorem Alike.finish (alike : left.Alike oversight right) (announced : Word)
    : (left.finish announced).Alike oversight (right.finish announced) := by
  have marked : Execution.Alike oversight
      { left with list := { left.list with
        state := .completed, token := (Word.low announced).toUInt32 } }
      { right with list := { right.list with
        state := .completed, token := (Word.low announced).toUInt32 } } :=
    alike.withList (by rw [alike.list])
  obtain ⟨raised, seen⟩ := marked.finished.raise
  let event := Occurrence.event (.finish (Word.low announced))
  exact ⟨raised, congrArg (fun later => Occurrence.effects (event :: later)) seen, rfl⟩

theorem Alike.charge (alike : left.Alike oversight right)
    : left.charge.Alike oversight right.charge :=
  { alike with
    registers := by
      simp only [Execution.charge, alike.pc]
      exact oversight.charge _ _ alike.registers }

/-- Without an announcement an END does nothing but count the cycles so far. -/
theorem endMark_of_announcement_none {execution : Execution} (operand : UInt32)
    (bare : Word.announcement? execution.registers.previous = none)
    : execution.endMark operand
      = { execution := execution.charge
          trace := [.notice (.bareEnd execution.list.id
            (Word.operand execution.registers.previous))] } := by
  have neither : ¬(Word.opcode execution.registers.previous = Opcode.signal
      ∨ Word.opcode execution.registers.previous = Opcode.finish) := by
    intro either
    simp [Word.announcement?, either] at bare
  have previous : execution.charge.registers.previous = execution.registers.previous := rfl
  rw [Execution.endMark]
  simp only [previous]
  split
  · next signal => exact absurd (Or.inl signal) neither
  · next finish => exact absurd (Or.inr finish) neither
  · rfl

theorem Alike.endMark (alike : left.Alike oversight right) (operand : UInt32)
    : (left.endMark operand).Alike oversight (right.endMark operand) := by
  have same := oversight.announcement alike.registers
  cases announced : Word.announcement? left.registers.previous with
  | none =>
      rw [endMark_of_announcement_none operand announced,
        endMark_of_announcement_none operand (same.trans announced)]
      exact ⟨alike.charge, rfl, rfl⟩
  | some word =>
      have previous : left.charge.registers.previous = word :=
        Word.eq_of_announcement? announced
      have previous' : right.charge.registers.previous = word :=
        Word.eq_of_announcement? (same.trans announced)
      simp only [Execution.endMark, previous, previous']
      split
      · exact alike.charge.signal word operand
      · exact alike.charge.finish word
      · exact ⟨alike.charge, rfl, rfl⟩

theorem Alike.setOffset (alike : left.Alike oversight right) (offset : Address)
    : (left.setOffset offset).Alike oversight (right.setOffset offset) :=
  ⟨{ alike with registers := oversight.setOffset offset alike.registers }, rfl, rfl⟩

theorem Alike.perform (alike : left.Alike oversight right)
    (mapped : other.isMapped = memory.isMapped) (difference : UInt32) (command : Command)
    : (left.perform memory difference command).Alike oversight
        (right.perform other difference command) := by
  cases command with
  | nop | signal | finish | render _ _ => exact ⟨alike, rfl, rfl⟩
  | jump operand => exact alike.jump mapped operand
  | call operand => exact alike.call mapped operand
  | ret => exact alike.ret mapped
  | endMark operand => exact alike.endMark operand
  | offset operand => exact alike.setOffset _
  | origin =>
      simp only [Execution.perform, alike.pc]
      exact alike.setOffset _

theorem Alike.recordWord (alike : left.Alike oversight right) (word : Word)
    : (left.recordWord word).Alike oversight (right.recordWord word) :=
  { alike with
    cache := by simp only [Execution.recordWord, alike.cache]
    stats := by
      simp only [Execution.recordWord, ← Stats.add_command]
      exact oversight.add _ alike.stats }

theorem Alike.advance (alike : left.Alike oversight right) (word : Word)
    : (left.advance word).Alike oversight (right.advance word) where
  list := by
    simp only [Execution.advance]
    rw [alike.list]
  registers := oversight.setPrevious word alike.registers
  cache := alike.cache
  interrupts := alike.interrupts
  stats := alike.stats

-----------------------------------------------------------------------------------------
-- Turns
-----------------------------------------------------------------------------------------

theorem Alike.fetchTrace (alike : left.Alike oversight right) (traceCommands : Bool)
    (word : Word)
    : Occurrence.effects (right.fetchTrace traceCommands word)
      = Occurrence.effects (left.fetchTrace traceCommands word) := by
  simp only [Execution.fetchTrace, alike.pc]
  cases traceCommands <;> rfl

theorem Alike.dispatch (alike : left.Alike oversight right)
    (mapped : other.isMapped = memory.isMapped) (traceCommands : Bool) (word : Word)
    : (left.dispatch memory traceCommands word).Alike oversight
        (right.dispatch other traceCommands word) := by
  have difference : right.cache.difference word = left.cache.difference word := by
    rw [alike.cache]
  have reacted := (alike.recordWord word).perform mapped
    (left.cache.difference word) (Command.ofWord word)
  have effects := (alike.fetchTrace traceCommands word).symm
  simp only [Execution.dispatch, difference, reacted.ending]
  split
  · exact .running (reacted.execution.advance word)
      (by simp only [Occurrence.effects_append, effects, reacted.effects])
  · exact .ended (reacted.execution.advance word).charge
      (by simp only [Occurrence.effects_append, effects, reacted.effects])

/-- Like executions take like turns in memories that hold the same word for them, unless only one of
them has stalled.
-/
theorem Alike.step (alike : left.Alike oversight right)
    (mapped : other.isMapped = memory.isMapped)
    (word : other.readWord left.list.pc = memory.readWord left.list.pc)
    (stalled : right.list.isStalled = left.list.isStalled) (traceCommands : Bool)
    : (left.step memory traceCommands).Alike oversight
        (right.step other traceCommands) := by
  simp only [Execution.step, stalled, alike.pc, word]
  split
  · exact .ended alike.charge rfl
  · split
    · exact alike.dispatch mapped traceCommands _
    · exact .ended alike.finished.charge rfl

/-- Like executions of which none has stalled take like turns in the same memory. -/
theorem Alike.step_of_free (alike : left.Alike oversight right) (memory : Memory)
    (traceCommands : Bool) (free : ¬left.list.isStalled) (free' : ¬right.list.isStalled)
    : (left.step memory traceCommands).Alike oversight (right.step memory traceCommands) :=
  alike.step rfl rfl (by simp [free, free']) traceCommands

/-- Like executions make like passages, in memories that hold the same word at every loop head,
unless one of them waits where the other does not; by induction on the turns.
-/
theorem Passage.alike {traceCommands : Bool} {first last start : Execution}
    {heads : List Execution} {seen : List Occurrence}
    (passage : Passage memory traceCommands first heads seen last)
    (alike : first.Alike oversight start) (mapped : other.isMapped = memory.isMapped)
    (words : ∀ head ∈ heads, other.readWord head.list.pc = memory.readWord head.list.pc)
    (waits : ∀ head ∈ heads, head.list.pc ≠ start.list.stall)
    : ∃ others stop happened,
        Passage other traceCommands start others happened stop
        ∧ others.length = heads.length
        ∧ last.Alike oversight stop
        ∧ Occurrence.effects happened = Occurrence.effects seen := by
  induction passage generalizing start with
  | here => exact ⟨[], start, [], .here start, rfl, alike, rfl⟩
  | @turn execution _ _ _ _ _ stepped _ ih =>
      have free : ¬execution.list.isStalled := not_isStalled_of_running stepped
      have free' : ¬start.list.isStalled := by
        simpa [DisplayList.isStalled, alike.pc] using waits execution (by simp)
      have turned := alike.step mapped (words execution (by simp))
        (by simp [free, free']) traceCommands
      rw [stepped] at turned
      generalize stepped' : start.step other traceCommands = progress at turned
      cases turned with
      | running alike effects =>
          have stall := (continues_of_running stepped').stall
          obtain ⟨others, stop, happened, passage, length, alike, same⟩ := ih alike
            (fun head member => words head (by simp [member]))
            (fun head member => stall ▸ waits head (by simp [member]))
          exact ⟨_, stop, _, .turn stepped' passage, by simp [length], alike,
            by simp only [Occurrence.effects_append, effects, same]⟩

/-- A list that waits at the same address does the same in like executions. -/
theorem Runs.alike {traceCommands : Bool} {fuel : Nat} {first last start : Execution}
    {ending : Ending} {seen : List Occurrence}
    (runs : Runs memory traceCommands fuel first ending last seen)
    (alike : first.Alike oversight start) (stall : start.list.stall = first.list.stall)
    : ∃ stop happened,
        Runs memory traceCommands fuel start ending stop happened
        ∧ last.Alike oversight stop
        ∧ stop.list = last.list
        ∧ Occurrence.effects happened = Occurrence.effects seen := by
  obtain ⟨heads, head, early, late, passage, ended, fueled, rfl⟩ := runs
  obtain ⟨others, other, happened, passage', length, alike, effects⟩ :=
    passage.alike alike rfl (fun _ _ => rfl) (stall ▸ passage.waits)
  have list : other.list = head.list := by
    have waiting : other.list.stall = head.list.stall := by
      rw [passage.continues.stall, passage'.continues.stall, stall]
    rw [alike.list, waiting]
  have turned : Progress.Alike oversight (head.step memory traceCommands)
      (other.step memory traceCommands) :=
    alike.step rfl rfl (by rw [list]) traceCommands
  rw [ended] at turned
  generalize ended' : other.step memory traceCommands = progress at turned
  cases turned with
  | ended last effects' =>
      have waiting := (continues_of_ended ended').stall.trans
        ((congrArg DisplayList.stall list).trans (continues_of_ended ended).stall.symm)
      exact ⟨_, _, ⟨others, other, happened, _, passage', ended', length ▸ fueled, rfl⟩, last,
        by rw [last.list, waiting], by simp only [Occurrence.effects_append, effects, effects']⟩

/-- A list that waits elsewhere does the same in like executions, unless it stalls on the way to
where the other one ends; by induction on the turns to there.
-/
theorem Runs.alike_or_stalls {traceCommands : Bool} {fuel : Nat} {first last start : Execution}
    {ending : Ending} {seen : List Occurrence}
    (runs : Runs memory traceCommands fuel first ending last seen) (through : ending ≠ .stalled)
    (alike : first.Alike oversight start)
    : (∃ stop happened,
        Runs memory traceCommands fuel start ending stop happened
        ∧ last.Alike oversight stop
        ∧ Occurrence.effects happened = Occurrence.effects seen)
      ∨ (start.list.stall ≠ first.list.stall
        ∧ ∃ stop happened, Runs memory traceCommands fuel start .stalled stop happened) := by
  obtain ⟨heads, head, early, late, passage, ended, fueled, rfl⟩ := runs
  have stalls {execution other : Execution} {fuel : Nat} (fueled : 0 < fuel)
      (alike : execution.Alike oversight other) (free : ¬execution.list.isStalled)
      (stalled : other.list.isStalled)
      : other.list.stall ≠ execution.list.stall
        ∧ ∃ stop happened, Runs memory traceCommands fuel other .stalled stop happened := by
    refine ⟨fun same => free ?_, _, _, runs_of_stalled stalled fueled⟩
    rwa [DisplayList.isStalled, alike.pc, same] at stalled
  induction passage generalizing start fuel with
  | here execution =>
      have free : ¬execution.list.isStalled := by
        intro stalled
        rw [step, if_pos stalled] at ended
        cases ended
        exact through rfl
      by_cases stalled : start.list.isStalled
      · exact .inr (stalls (Nat.zero_lt_of_lt fueled) alike free stalled)
      · have turned := alike.step_of_free memory traceCommands free stalled
        rw [ended] at turned
        generalize ended' : start.step memory traceCommands = progress at turned
        cases turned with
        | ended last effects =>
            exact .inl ⟨_, _, ⟨[], start, [], _, .here start, ended', fueled, rfl⟩, last, effects⟩
  | @turn execution _ _ _ _ _ stepped _ ih =>
      have free : ¬execution.list.isStalled := not_isStalled_of_running stepped
      by_cases stalled : start.list.isStalled
      · exact .inr (stalls (Nat.zero_lt_of_lt fueled) alike free stalled)
      · have turned := alike.step_of_free memory traceCommands free stalled
        rw [stepped] at turned
        generalize stepped' : start.step memory traceCommands = progress at turned
        cases fuel with
        | zero => cases fueled
        | succ fuel =>
            cases turned with
            | running alike effects =>
                have stall := (continues_of_running stepped).stall
                have stall' := (continues_of_running stepped').stall
                rcases ih alike ended (Nat.lt_of_succ_lt_succ fueled) with through | stops
                · obtain ⟨stop, happened, runs, alike, same⟩ := through
                  refine .inl ⟨stop, _, runs.turn stepped', alike, ?_⟩
                  simp only [Occurrence.effects_append, effects, same, List.append_assoc]
                · obtain ⟨elsewhere, stop, happened, runs⟩ := stops
                  exact .inr ⟨stall ▸ stall' ▸ elsewhere, stop, _, runs.turn stepped'⟩

end Execution

end GraphicsEngine
