import GraphicsEngine.Proofs.Execution.Forwarding

/-! A list that runs in two executions which hold different words in their caches, and have counted
differently so far. Of the cache a list goes by nothing but what BASE gives to targets, and of the
registers by what is cleared when a list comes to the front; what it does is the same in both, but
for the bits in which commands differ from those before them.
-/

namespace GraphicsEngine

-----------------------------------------------------------------------------------------
-- Differences between commands
-----------------------------------------------------------------------------------------

/-- The event without the bits in which a command differs from the last one of its opcode. -/
def Event.blurred
    : Event → Event
  | execute opcode operand _ => execute opcode operand 0
  | told => told

/-- The opcode of a command for the renderer. -/
def Event.opcode?
    : Event → Option Opcode
  | execute opcode _ _ => some opcode
  | call .. | jump .. | ret .. | signal .. | finish .. | reset => none

/-- Every command for the renderer has an opcode. -/
theorem Event.opcode?_of_isExecute {event : Event} (executes : event.isExecute)
    : ∃ opcode, event.opcode? = some opcode := by
  cases event with
  | execute opcode => exact ⟨opcode, rfl⟩
  | _ => cases executes

def Occurrence.blurred
    : Occurrence → Occurrence
  | event told => event told.blurred
  | other => other

/-- What happened apart from notices and from the differences between commands. -/
def Occurrence.outline (seen : List Occurrence)
    : List Occurrence :=
  (effects seen).map blurred

@[simp] theorem Occurrence.outline_append (earlier later : List Occurrence)
    : outline (earlier ++ later) = outline earlier ++ outline later := by
  simp [outline]

/-- A view that shows no notices shows what is left of them without differences. -/
theorem Occurrence.filterMap_outline {α : Type} {view : Occurrence → Option α}
    (blind : ∀ given, view (.notice given) = none) (seen : List Occurrence)
    : (outline seen).filterMap view = seen.filterMap (view ∘ blurred) := by
  rw [outline, List.filterMap_map, effects, List.filterMap_filter]
  congr 1
  funext occurrence
  cases occurrence <;> simp [notice?, blurred, blind]

section Outline

variable {seen others : List Occurrence}
  (outline : Occurrence.outline others = Occurrence.outline seen)

include outline

/-- A view that shows neither notices nor differences shows the same. -/
theorem Occurrence.filterMap_of_outline {α : Type} {view : Occurrence → Option α}
    (blind : ∀ given, view (.notice given) = none) (sightless : view ∘ blurred = view)
    : others.filterMap view = seen.filterMap view := by
  have same := congrArg (List.filterMap view) outline
  rwa [filterMap_outline blind, filterMap_outline blind, sightless] at same

theorem Occurrence.fetches_of_outline
    : others.filterMap fetch? = seen.filterMap fetch? :=
  filterMap_of_outline outline (fun _ => rfl) (funext fun occurrence => by cases occurrence <;> rfl)

theorem Occurrence.raised_of_outline
    : others.filterMap raised? = seen.filterMap raised? :=
  filterMap_of_outline outline (fun _ => rfl) (funext fun occurrence => by cases occurrence <;> rfl)

theorem Occurrence.delivered_of_outline
    : others.filterMap delivered? = seen.filterMap delivered? :=
  filterMap_of_outline outline (fun _ => rfl) (funext fun occurrence => by cases occurrence <;> rfl)

/-- What is told is the same, but for the differences. -/
theorem Occurrence.events_of_outline
    : (others.filterMap event?).map Event.blurred = (seen.filterMap event?).map Event.blurred := by
  have told : event? ∘ blurred = fun occurrence => (event? occurrence).map Event.blurred :=
    funext fun occurrence => by cases occurrence <;> rfl
  have same := congrArg (List.filterMap event?) outline
  rwa [filterMap_outline fun _ => rfl, filterMap_outline fun _ => rfl, told, ← List.map_filterMap,
    ← List.map_filterMap] at same

end Outline

/-- The renderer is handed the same of the same words, whatever was in the cache before them, once a
word of the opcode was among them, or if the caches agree on it; by induction on the words.
-/
theorem CommandCache.forwarded_agrees (left right : CommandCache) (words : List Word) {index : Nat}
    {event : Event} (handed : (left.forwarded words)[index]? = some event)
    (known : ∃ opcode, event.opcode? = some opcode
      ∧ (right.get opcode = left.get opcode
        ∨ ∃ earlier ∈ (left.forwarded words).take index, earlier.opcode? = some opcode))
    : (right.forwarded words)[index]? = some event := by
  induction words generalizing left right index with
  | nil => cases handed
  | cons word rest ih =>
      obtain ⟨opcode, selects, known⟩ := known
      -- Both caches keep the word, so that they agree on its opcode from here on.
      have agree (same : opcode = Word.opcode word ∨ right.get opcode = left.get opcode)
          : (right.put word).get opcode = (left.put word).get opcode := by
        rw [get_put, get_put]
        split
        · rfl
        · next other => exact same.resolve_left other
      rw [forwarded_cons] at handed known ⊢
      split
      · next steers =>
        rw [if_pos steers] at handed known
        exact ih _ _ handed ⟨opcode, selects, known.imp (fun same => agree (.inr same)) id⟩
      · next renders =>
        rw [if_neg renders] at handed known
        cases index with
        | zero =>
            cases handed
            cases selects
            rcases known with same | ⟨earlier, member, -⟩
            · simp [difference, same]
            · cases member
        | succ index =>
            refine ih (left.put word) (right.put word) handed ⟨opcode, selects, ?_⟩
            rcases known with same | ⟨earlier, member, alike⟩
            · exact .inl (agree (.inr same))
            · rcases List.mem_cons.mp member with rfl | member
              · exact .inl (agree (.inl (Option.some.inj alike).symm))
              · exact .inr ⟨earlier, member, alike⟩

-----------------------------------------------------------------------------------------
-- Executions in parallel
-----------------------------------------------------------------------------------------

/-- Two executions that agree in all that their list goes by. One of them has counted so many cycles
more than the other.
-/
structure Execution.Parallel (surplus : UInt64) (left right : Execution)
    : Prop where
  list : right.list = left.list
  offset : right.registers.offset = left.registers.offset
  previous : right.registers.previous = left.registers.previous
  checkpoint : right.registers.checkpoint = left.registers.checkpoint
  cycles : right.registers.cycles = left.registers.cycles + surplus
  base : right.cache.base = left.cache.base
  enabled : right.interrupts.enabled = left.interrupts.enabled
  serving : right.interrupts.serving = left.interrupts.serving

/-- Two reactions that lead to executions in parallel, in the same way. -/
structure Reaction.Parallel (surplus : UInt64) (left right : Reaction)
    : Prop where
  execution : left.execution.Parallel surplus right.execution
  outline : Occurrence.outline right.trace = Occurrence.outline left.trace
  ending : right.ending = left.ending

/-- Two turns of the fetch cycle that lead to executions in parallel, or end so. -/
inductive Progress.Parallel (surplus : UInt64)
    : Progress → Progress → Prop
  | running {left right seen others} (parallel : left.Parallel surplus right)
    (outline : Occurrence.outline others = Occurrence.outline seen)
    : Progress.Parallel surplus (.running left seen) (.running right others)
  | ended {ending left right seen others} (parallel : left.Parallel surplus right)
    (outline : Occurrence.outline others = Occurrence.outline seen)
    : Progress.Parallel surplus (.ended ending left seen) (.ended ending right others)

namespace Execution

variable {surplus : UInt64} {left right : Execution} {memory : Memory}

namespace Parallel

theorem target (parallel : left.Parallel surplus right) (operand : UInt32)
    : right.target operand = left.target operand := by
  rw [Execution.target, Execution.target, parallel.offset, parallel.base]

/-- Executions in parallel count the same number of cycles. -/
theorem charged (parallel : left.Parallel surplus right) (pc checkpoint : Address)
    : (right.registers.charge pc checkpoint).cycles
      = (left.registers.charge pc checkpoint).cycles + surplus := by
  simp only [Registers.charge, parallel.checkpoint, parallel.cycles]
  ac_rfl

theorem charge (parallel : left.Parallel surplus right)
    : left.charge.Parallel surplus right.charge :=
  { parallel with
    checkpoint := congrArg DisplayList.pc parallel.list
    cycles := by
      rw [Execution.charge, parallel.list]
      exact parallel.charged _ _ }

/-- Executions in parallel stay so when their list is changed in the same way. -/
theorem withList (parallel : left.Parallel surplus right) (list : DisplayList)
    : Execution.Parallel surplus { left with list } { right with list } :=
  { parallel with list := rfl }

theorem finished (parallel : left.Parallel surplus right)
    : Execution.Parallel surplus
        { left with registers := { left.registers with finished := true } }
        { right with registers := { right.registers with finished := true } } :=
  { parallel with }

theorem transfer (parallel : left.Parallel surplus right) (target : Address)
    : (left.transfer target).Parallel surplus (right.transfer target) :=
  { parallel with
    list := by simp only [Execution.transfer, parallel.list]
    checkpoint := rfl
    cycles := by
      rw [Execution.transfer, parallel.list]
      exact parallel.charged _ _ }

theorem jump (parallel : left.Parallel surplus right) (operand : UInt32)
    : (left.jump memory operand).Parallel surplus (right.jump memory operand) := by
  simp only [Execution.jump, parallel.target]
  split
  · exact ⟨parallel.transfer _, rfl, rfl⟩
  · exact ⟨parallel, rfl, rfl⟩

theorem call (parallel : left.Parallel surplus right) (operand : UInt32)
    : (left.call memory operand).Parallel surplus (right.call memory operand) := by
  simp only [Execution.call, parallel.target, parallel.list]
  split
  · cases left.list.push? _ with
    | none => exact ⟨parallel, rfl, rfl⟩
    | some list => exact ⟨(parallel.withList list).transfer _, rfl, rfl⟩
  · exact ⟨parallel, rfl, rfl⟩

theorem ret (parallel : left.Parallel surplus right)
    : (left.ret memory).Parallel surplus (right.ret memory) := by
  simp only [Execution.ret, parallel.list]
  cases left.list.pop? with
  | none => exact ⟨parallel, rfl, rfl⟩
  | some popped =>
      have moved := (parallel.withList popped.2).transfer
        ((left.list.pc &&& 0xF0000000) ||| popped.1.mask)
      dsimp only
      split
      · exact ⟨moved, rfl, rfl⟩
      · exact ⟨moved.finished, rfl, rfl⟩

/-- The same interrupt is raised or not, and delivered or not. -/
theorem raise (parallel : left.Parallel surplus right)
    : left.raise.1.Parallel surplus right.raise.1
      ∧ Occurrence.outline right.raise.2 = Occurrence.outline left.raise.2 := by
  simp only [Execution.raise, parallel.list, parallel.enabled]
  split
  · exact ⟨parallel, rfl⟩
  · simp only [Interrupts.raise, parallel.serving]
    split
    · exact ⟨{ parallel with list := rfl, serving := rfl }, rfl⟩
    · exact ⟨{ parallel with list := rfl }, rfl⟩

/-- What is told in front of what happens further is told in both. -/
theorem outline_cons {seen others : List Occurrence} (occurrence : Occurrence)
    (outline : Occurrence.outline others = Occurrence.outline seen)
    : Occurrence.outline (occurrence :: others) = Occurrence.outline (occurrence :: seen) := by
  rw [← List.singleton_append, Occurrence.outline_append, outline, ← Occurrence.outline_append]
  rfl

theorem signal (parallel : left.Parallel surplus right) (announced : Word) (operand : UInt32)
    : (left.signal announced operand).Parallel surplus (right.signal announced operand) := by
  have marked := (parallel.withList { left.list with
    token := (Word.low announced).toUInt32, signal := Word.middle announced }).raise
  simp only [Execution.signal, parallel.list]
  exact ⟨marked.1, outline_cons _ (outline_cons _ marked.2), rfl⟩

theorem finish (parallel : left.Parallel surplus right) (announced : Word)
    : (left.finish announced).Parallel surplus (right.finish announced) := by
  have marked := ((parallel.withList { left.list with
    state := .completed, token := (Word.low announced).toUInt32 }).finished).raise
  simp only [Execution.finish, parallel.list]
  exact ⟨marked.1, outline_cons _ marked.2, rfl⟩

theorem endMark (parallel : left.Parallel surplus right) (operand : UInt32)
    : (left.endMark operand).Parallel surplus (right.endMark operand) := by
  have announced : right.charge.registers.previous = left.charge.registers.previous :=
    parallel.previous
  simp only [Execution.endMark, announced]
  split
  · exact parallel.charge.signal _ _
  · exact parallel.charge.finish _
  · exact ⟨parallel.charge, rfl, rfl⟩

theorem setOffset (parallel : left.Parallel surplus right) (offset : Address)
    : (left.setOffset offset).Parallel surplus (right.setOffset offset) :=
  ⟨{ parallel with offset := rfl }, rfl, rfl⟩

/-- Every command keeps executions in parallel, whatever it differs in from the one before. -/
theorem perform (parallel : left.Parallel surplus right) (memory : Memory)
    (difference other : UInt32) (command : Command)
    : (left.perform memory difference command).Parallel surplus
        (right.perform memory other command) := by
  cases command with
  | nop | signal | finish | render _ _ => exact ⟨parallel, rfl, rfl⟩
  | jump operand => exact parallel.jump operand
  | call operand => exact parallel.call operand
  | ret => exact parallel.ret
  | endMark operand => exact parallel.endMark operand
  | offset operand => exact parallel.setOffset _
  | origin =>
      simp only [Execution.perform, parallel.list]
      exact parallel.setOffset _

/-- A BASE is kept in both caches, and any other word leaves alone what BASE gave. -/
theorem recordWord (parallel : left.Parallel surplus right) (word : Word)
    : (left.recordWord word).Parallel surplus (right.recordWord word) :=
  { parallel with
    base := by
      have base := parallel.base
      simp only [Execution.recordWord, CommandCache.base, CommandCache.get_put] at base ⊢
      split
      · rfl
      · exact base }

theorem advance (parallel : left.Parallel surplus right) (word : Word)
    : (left.advance word).Parallel surplus (right.advance word) :=
  { parallel with
    list := by simp only [Execution.advance, parallel.list]
    previous := rfl }

theorem fetchTrace (parallel : left.Parallel surplus right) (traceCommands other : Bool)
    (word : Word)
    : Occurrence.outline (right.fetchTrace other word)
      = Occurrence.outline (left.fetchTrace traceCommands word) := by
  simp only [Execution.fetchTrace, parallel.list]
  cases traceCommands <;> cases other <;> rfl

theorem dispatch (parallel : left.Parallel surplus right) (traceCommands other : Bool)
    (word : Word)
    : (left.dispatch memory traceCommands word).Parallel surplus
        (right.dispatch memory other word) := by
  have reacted := (parallel.recordWord word).perform memory
    (left.cache.difference word) (right.cache.difference word) (Command.ofWord word)
  have outline : ∀ {seen others : List Occurrence},
      Occurrence.outline others = Occurrence.outline seen
      → Occurrence.outline (right.fetchTrace other word ++ others)
        = Occurrence.outline (left.fetchTrace traceCommands word ++ seen) := by
    intro seen others same
    rw [Occurrence.outline_append, Occurrence.outline_append, same,
      parallel.fetchTrace traceCommands other]
  simp only [Execution.dispatch, reacted.ending]
  split
  · exact .running (reacted.execution.advance word) (outline reacted.outline)
  · exact .ended (reacted.execution.advance word).charge (outline reacted.outline)

/-- Executions in parallel take turns in parallel. -/
theorem step (parallel : left.Parallel surplus right) (memory : Memory)
    (traceCommands other : Bool)
    : (left.step memory traceCommands).Parallel surplus (right.step memory other) := by
  have stalled : right.list.isStalled = left.list.isStalled := by rw [parallel.list]
  have pc : right.list.pc = left.list.pc := by rw [parallel.list]
  simp only [Execution.step, stalled, pc]
  split
  · exact .ended parallel.charge rfl
  · split
    · exact parallel.dispatch _ _ _
    · exact .ended parallel.finished.charge rfl

end Parallel

variable {traceCommands other : Bool} {first last start : Execution} {seen : List Occurrence}

/-- Executions in parallel make passages in parallel, by induction on the turns. -/
theorem Passage.parallel {heads : List Execution}
    (passage : Passage memory traceCommands first heads seen last)
    (parallel : first.Parallel surplus start) (other : Bool)
    : ∃ heads' stop others,
        Passage memory other start heads' others stop
        ∧ heads'.length = heads.length
        ∧ last.Parallel surplus stop
        ∧ Occurrence.outline others = Occurrence.outline seen := by
  induction passage generalizing start with
  | here => exact ⟨[], start, [], .here start, rfl, parallel, rfl⟩
  | turn stepped _ ih =>
      have turned := parallel.step memory traceCommands other
      rw [stepped] at turned
      generalize stepped' : start.step memory other = progress at turned
      cases turned with
      | running parallel outline =>
          obtain ⟨heads', stop, others, passage, length, parallel, same⟩ := ih parallel
          exact ⟨_, stop, _, .turn stepped' passage, by simp [length], parallel,
            by simp only [Occurrence.outline_append, outline, same]⟩

/-- A list's run in one of two executions in parallel is its run in the other one, too. -/
theorem Runs.parallel {fuel : Nat} {ending : Ending}
    (runs : Runs memory traceCommands fuel first ending last seen)
    (parallel : first.Parallel surplus start) (other : Bool)
    : ∃ stop others,
        Runs memory other fuel start ending stop others
        ∧ last.Parallel surplus stop
        ∧ Occurrence.outline others = Occurrence.outline seen := by
  obtain ⟨heads, head, early, late, passage, ended, fueled, rfl⟩ := runs
  obtain ⟨heads', head', early', passage', length, parallel, outline⟩ :=
    passage.parallel parallel other
  have turned := parallel.step memory traceCommands other
  rw [ended] at turned
  generalize ended' : head'.step memory other = progress at turned
  cases turned with
  | ended parallel outline' =>
      exact ⟨_, _, ⟨heads', head', early', _, passage', ended', length ▸ fueled, rfl⟩, parallel,
        by simp only [Occurrence.outline_append, outline, outline']⟩

end Execution

end GraphicsEngine
