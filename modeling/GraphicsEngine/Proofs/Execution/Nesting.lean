import GraphicsEngine.Proofs.Execution.Turns
import GraphicsEngine.Proofs.Memory

/-! Calls and returns of a running list. Where a command leaves the list, and which calls it leaves
open, is told here once for every word; what the renderer is told of calls and returns is then the
history of a stack.
-/

namespace GraphicsEngine

-----------------------------------------------------------------------------------------
-- Histories of a stack
-----------------------------------------------------------------------------------------

/-- The event opens a call or closes one. -/
def Event.isNesting
    : Event → Bool
  | call .. | ret .. => true
  | execute .. | jump .. | signal .. | finish .. | reset => false

/-- The return addresses after an event, innermost call first: a call puts its own on top, of at
most 32 in all, and a return takes the one on top away, which it leads to. None if the event could
not have been.
-/
def Event.nest? (stack : List Address)
    : Event → Option (List Address)
  | call _ returnAddress => if stack.length < 32 then some (returnAddress :: stack) else none
  | ret target =>
      match stack with
      | [] => none
      | top :: outer => if top = target then some outer else none
  | execute .. | jump .. | signal .. | finish .. | reset => some stack

/-- The return addresses after events in a row; none if one of them could not have been. -/
def replay? (stack : List Address)
    : List Event → Option (List Address)
  | [] => some stack
  | event :: events =>
      match event.nest? stack with
      | none => none
      | some next => replay? next events

theorem Event.nest?_of_not_isNesting {event : Event} (other : ¬event.isNesting)
    (stack : List Address)
    : event.nest? stack = some stack := by
  cases event <;> first | rfl | exact absurd rfl other

/-- Later events go on from where the earlier ones have led, by induction on these. -/
theorem replay?_append {stack middle : List Address} {earlier : List Event}
    (reached : replay? stack earlier = some middle) (later : List Event)
    : replay? stack (earlier ++ later) = replay? middle later := by
  induction earlier generalizing stack with
  | nil =>
      cases reached
      rfl
  | cons event events ih =>
      rw [replay?] at reached
      rw [List.cons_append, replay?]
      split at reached
      · cases reached
      · exact ih reached

/-- Events that neither open a call nor close one can be left out, by induction on all. -/
theorem replay?_filter (stack : List Address) (events : List Event)
    : replay? stack (events.filter Event.isNesting) = replay? stack events := by
  induction events generalizing stack with
  | nil => rfl
  | cons event events ih =>
      by_cases nesting : event.isNesting
      · rw [List.filter_cons_of_pos nesting, replay?, replay?]
        split
        · rfl
        · exact ih _
      · rw [List.filter_cons_of_neg nesting, ih, replay?, event.nest?_of_not_isNesting nesting]

/-- What is told of calls and returns. -/
def Occurrence.nestings (seen : List Occurrence)
    : List Event :=
  (seen.filterMap event?).filter Event.isNesting

@[simp] theorem Occurrence.nestings_append (earlier later : List Occurrence)
    : nestings (earlier ++ later) = nestings earlier ++ nestings later := by
  simp [nestings]

-----------------------------------------------------------------------------------------
-- Words
-----------------------------------------------------------------------------------------

/-- A list whose next command and return addresses name no segment, and whose open calls fit on the
stack.
-/
structure DisplayList.Placed (list : DisplayList)
    : Prop where
  pc : list.pc.IsMasked
  stack : ∀ address ∈ list.stack, address.IsMasked
  shallow : list.stack.length ≤ 32

namespace Progress

/-- The execution that a turn of the fetch cycle leads to. -/
def execution
    : Progress → Execution
  | running next _ => next
  | ended _ last _ => last

/-- What is told of calls and returns in a turn. -/
def nestings
    : Progress → List Event
  | running _ seen => Occurrence.nestings seen
  | ended _ _ seen => Occurrence.nestings seen

end Progress

namespace Execution

/-- All that a word can do to the calls that are open at a loop head and to where the list goes on:
what is told of it, and the turn that it is carried out in.
-/
inductive Nests (memory : Memory) (head : Execution) (word : Word)
    : List Event → Progress → Prop
  /-- A CALL is carried out if its target is mapped and fewer than 32 calls are open. -/
  | calls {next : Execution} {seen : List Occurrence} (called : word.opcode = Opcode.call)
    (mapped : memory.isMapped (head.target word.operand)) (room : head.list.stack.length < 32)
    (pc : next.list.pc = head.target word.operand)
    (stack : next.list.stack = Address.mask (head.list.pc + 4) :: head.list.stack)
    : Nests memory head word
        [.call (head.target word.operand) (Address.mask (head.list.pc + 4))] (.running next seen)
  /-- Any other CALL is passed over. -/
  | refuses {next : Execution} {seen : List Occurrence} (called : word.opcode = Opcode.call)
    (refused : ¬(memory.isMapped (head.target word.operand) ∧ head.list.stack.length < 32))
    (pc : next.list.pc = Address.mask (head.list.pc + 4))
    (stack : next.list.stack = head.list.stack)
    : Nests memory head word [] (.running next seen)
  /-- A RET leads to the return address on top, if that is mapped. -/
  | returns {next : Execution} {seen : List Occurrence} (returned : word.opcode = Opcode.ret)
    {address : Address} (stack : head.list.stack = address :: next.list.stack)
    (mapped : memory.isMapped address) (pc : next.list.pc = address)
    : Nests memory head word [.ret address] (.running next seen)
  /-- A RET is passed over if no call is open. -/
  | ignores {next : Execution} {seen : List Occurrence} (returned : word.opcode = Opcode.ret)
    (none : head.list.stack = []) (pc : next.list.pc = Address.mask (head.list.pc + 4))
    (stack : next.list.stack = [])
    : Nests memory head word [] (.running next seen)
  /-- A RET to an address that is not mapped takes it from the stack and aborts the list. -/
  | loses {last : Execution} {seen : List Occurrence} (returned : word.opcode = Opcode.ret)
    {address : Address} (stack : head.list.stack = address :: last.list.stack)
    (unmapped : ¬memory.isMapped address)
    : Nests memory head word [] (.ended .aborted last seen)
  /-- Any other word leaves the calls alone, and leads to the next word unless it is a JUMP. -/
  | passes {turn : Progress} (other : word.opcode ≠ Opcode.call ∧ word.opcode ≠ Opcode.ret)
    (stack : turn.execution.list.stack = head.list.stack)
    (straight : word.opcode ≠ Opcode.jump
      → turn.execution.list.pc = Address.mask (head.list.pc + 4))
    (unaborted : ∀ last seen, turn ≠ .ended .aborted last seen)
    : Nests memory head word [] turn

end Execution

/-- The byte that selects a command. -/
def Command.opcode
    : Command → Opcode
  | nop => Opcode.nop
  | jump _ => Opcode.jump
  | call _ => Opcode.call
  | ret => Opcode.ret
  | endMark _ => Opcode.endMark
  | signal => Opcode.signal
  | finish => Opcode.finish
  | offset _ => Opcode.offset
  | origin => Opcode.origin
  | render opcode _ => opcode

/-- A word asks for the command that its opcode selects, opcode by opcode. -/
theorem Command.opcode_ofWord (word : Word)
    : (ofWord word).opcode = word.opcode := by
  unfold ofWord
  split
  case h_10 => rfl
  all_goals next same => exact same.symm

/-- A word of an opcode that is not BASE does not change the upper bits of targets. -/
theorem CommandCache.base_put {word : Word} (other : word.opcode ≠ Opcode.base)
    (cache : CommandCache)
    : (cache.put word).base = cache.base := by
  rw [base, get_put, if_neg other.symm, base]

namespace Execution

variable {memory : Memory} {traceCommands : Bool} {head next first last : Execution} {word : Word}
  {seen : List Occurrence}

/-- What leads to an address leads there once the next word is moved on to. -/
theorem mask_transferred {target : Address} (masked : target.IsMasked)
    : Address.mask (target - 4 + 4) = target := by
  rw [UInt32.sub_add_cancel]
  exact masked

theorem target_recordWord (other : word.opcode ≠ Opcode.base) (head : Execution) (operand : UInt32)
    : (head.recordWord word).target operand = head.target operand := by
  simp only [target, recordWord, CommandCache.base_put other]

section Commands

variable {execution : Execution} {operand : UInt32} {address : Address} {outer : List Address}

theorem call_of_open (mapped : memory.isMapped (execution.target operand))
    (room : execution.list.stack.length < 32)
    : execution.call memory operand
      = { execution := transfer { execution with
            list := { execution.list with
              stack := Address.mask (execution.list.pc + 4) :: execution.list.stack } }
              (execution.target operand)
          trace := [.event (.call (execution.target operand)
            (Address.mask (execution.list.pc + 4)))] } := by
  have pushed : execution.list.push? (Address.mask (execution.list.pc + 4))
      = some { execution.list with
          stack := Address.mask (execution.list.pc + 4) :: execution.list.stack } := by
    rw [DisplayList.push?, Address.mask_mask]
    exact if_pos room
  simp only [call, if_pos mapped, pushed]

theorem call_of_refused
    (refused : ¬(memory.isMapped (execution.target operand) ∧ execution.list.stack.length < 32))
    : ∃ given, execution.call memory operand = { execution, trace := [.notice given] } := by
  simp only [call]
  split
  · next mapped =>
    have full : execution.list.push? (Address.mask (execution.list.pc + 4)) = none :=
      if_neg fun room => refused ⟨mapped, room⟩
    rw [full]
    exact ⟨_, rfl⟩
  · exact ⟨_, rfl⟩

theorem ret_of_none (memory : Memory) (execution : Execution) (stack : execution.list.stack = [])
    : execution.ret memory
      = { execution, trace := [.notice (.stackEmpty execution.list.id)] } := by
  simp only [ret, DisplayList.pop?, stack]

/-- A RET at a masked address transfers to the return address on top as it is. -/
theorem ret_of_cons (memory : Memory) (execution : Execution) (pc : execution.list.pc.IsMasked)
    (masked : address.IsMasked) (stack : execution.list.stack = address :: outer)
    : ∃ given, execution.ret memory
        = if memory.isMapped address then
            { execution := transfer
                { execution with list := { execution.list with stack := outer } } address
              trace := [.event (.ret address)] }
          else
            { execution := { transfer
                  { execution with list := { execution.list with stack := outer } } address with
                registers := { (execution.registers.charge execution.list.pc (address - 4)) with
                  finished := true } }
              trace := [.notice given]
              ending := some .aborted } := by
  simp only [ret, DisplayList.pop?, stack, Address.return_eq pc masked]
  exact ⟨_, rfl⟩

end Commands

/-- A turn that fetches a word goes on with the next one where the word ends nothing. -/
theorem step_of_continues {reaction : Reaction} (waits : ¬head.list.isStalled)
    (fetched : memory.readWord head.list.pc = .ok word)
    (reacts : head.react memory word = reaction) (continues : reaction.ending = none)
    : head.step memory traceCommands
      = .running (reaction.execution.advance word)
          (head.fetchTrace traceCommands word ++ reaction.trace) := by
  subst reacts
  rw [react] at continues
  simp only [step, if_neg waits, fetched, dispatch, continues]
  rfl

theorem step_of_stops {reaction : Reaction} {ending : Ending} (waits : ¬head.list.isStalled)
    (fetched : memory.readWord head.list.pc = .ok word)
    (reacts : head.react memory word = reaction) (stops : reaction.ending = some ending)
    : head.step memory traceCommands
      = .ended ending (reaction.execution.advance word).charge
          (head.fetchTrace traceCommands word ++ reaction.trace) := by
  subst reacts
  rw [react] at stops
  simp only [step, if_neg waits, fetched, dispatch, stops]
  rfl

/-- Raising an interrupt tells nothing of calls and returns. -/
theorem raise_nestings (execution : Execution)
    : Occurrence.nestings execution.raise.2 = [] := by
  unfold raise
  split
  · rfl
  · simp only [Interrupts.raise]
    split <;> rfl

/-- A command that is no CALL and no RET leaves the calls alone, case by case on the command and on
what it tests.
-/
theorem perform_passes (memory : Memory) (execution : Execution) (difference : UInt32)
    {command : Command} (other : command.opcode ≠ Opcode.call ∧ command.opcode ≠ Opcode.ret)
    : let reaction := execution.perform memory difference command
      Occurrence.nestings reaction.trace = []
      ∧ reaction.execution.list.stack = execution.list.stack
      ∧ (command.opcode ≠ Opcode.jump → reaction.execution.list.pc = execution.list.pc)
      ∧ reaction.ending ≠ some .aborted := by
  have runsOn : none ≠ some Ending.aborted := nofun
  have completed : some Ending.completed ≠ some Ending.aborted := by decide
  cases command with
  | nop | signal | finish | offset _ | origin | render _ _ =>
      exact ⟨rfl, rfl, fun _ => rfl, runsOn⟩
  | call _ => exact absurd rfl other.1
  | ret => exact absurd rfl other.2
  | jump operand =>
      have jumps : (Command.jump operand).opcode = Opcode.jump := rfl
      simp only [perform, jump]
      split <;> exact ⟨rfl, rfl, fun straight => absurd jumps straight, runsOn⟩
  | endMark operand =>
      simp only [perform, endMark]
      split
      · simp only [signal, raise_list]
        exact ⟨raise_nestings _, rfl, fun _ => rfl, runsOn⟩
      · simp only [finish, raise_list]
        exact ⟨raise_nestings _, rfl, fun _ => rfl, completed⟩
      · exact ⟨rfl, rfl, fun _ => rfl, runsOn⟩

@[simp] theorem nestings_fetchTrace (traceCommands : Bool) (head : Execution) (word : Word)
    : Occurrence.nestings (head.fetchTrace traceCommands word) = [] := by
  cases traceCommands <;> rfl

section Words

variable (waits : ¬head.list.isStalled) (fetched : memory.readWord head.list.pc = .ok word)

include waits fetched

/-- What a word that ends nothing does to the calls shows in the next loop head. -/
theorem nests_of_continues {reaction : Reaction} (reacts : head.react memory word = reaction)
    (continues : reaction.ending = none)
    (nests : ∀ seen, Nests memory head word (Occurrence.nestings reaction.trace)
      (.running (reaction.execution.advance word) seen))
    : Nests memory head word (head.step memory traceCommands).nestings
        (head.step memory traceCommands) := by
  rw [step_of_continues waits fetched reacts continues, Progress.nestings,
    Occurrence.nestings_append, nestings_fetchTrace]
  exact nests _

/-- What a word that ends the list does to the calls shows in the list that is left. -/
theorem nests_of_stops {reaction : Reaction} {ending : Ending}
    (reacts : head.react memory word = reaction) (stops : reaction.ending = some ending)
    (nests : ∀ seen, Nests memory head word (Occurrence.nestings reaction.trace)
      (.ended ending (reaction.execution.advance word).charge seen))
    : Nests memory head word (head.step memory traceCommands).nestings
        (head.step memory traceCommands) := by
  rw [step_of_stops waits fetched reacts stops, Progress.nestings, Occurrence.nestings_append,
    nestings_fetchTrace]
  exact nests _

/-- A CALL does to the calls what its target and the depth of the stack say. -/
theorem nests_of_call (called : word.opcode = Opcode.call)
    : Nests memory head word (head.step memory traceCommands).nestings
        (head.step memory traceCommands) := by
  have reacts : head.react memory word = (head.recordWord word).call memory word.operand := by
    rw [react, Command.ofWord, called]
    rfl
  have target : (head.recordWord word).target word.operand = head.target word.operand :=
    target_recordWord (by rw [called]; decide) head _
  by_cases opens : memory.isMapped (head.target word.operand) ∧ head.list.stack.length < 32
  · rw [← target] at opens
    rw [call_of_open opens.1 opens.2] at reacts
    rw [target] at opens reacts
    exact nests_of_continues waits fetched reacts rfl fun _ =>
      .calls called opens.1 opens.2 (mask_transferred (Address.isMasked_mask _)) rfl
  · rw [← target] at opens
    obtain ⟨given, refused⟩ := call_of_refused opens
    rw [refused] at reacts
    rw [target] at opens
    exact nests_of_continues waits fetched reacts rfl fun _ => .refuses called opens rfl rfl

/-- A RET does to the calls what the return address on top says. -/
theorem nests_of_ret (placed : head.list.Placed) (returned : word.opcode = Opcode.ret)
    : Nests memory head word (head.step memory traceCommands).nestings
        (head.step memory traceCommands) := by
  have reacts : head.react memory word = (head.recordWord word).ret memory := by
    rw [react, Command.ofWord, returned]
    rfl
  cases stack : head.list.stack with
  | nil =>
      rw [ret_of_none memory (head.recordWord word) stack] at reacts
      exact nests_of_continues waits fetched reacts rfl fun _ => .ignores returned stack rfl stack
  | cons address outer =>
      have masked : address.IsMasked := placed.stack address (by simp [stack])
      obtain ⟨given, returns⟩ :=
        ret_of_cons memory (head.recordWord word) placed.pc masked stack
      rw [returns] at reacts
      by_cases mapped : memory.isMapped address
      · rw [if_pos mapped] at reacts
        exact nests_of_continues waits fetched reacts rfl fun _ =>
          .returns returned stack mapped (mask_transferred masked)
      · rw [if_neg mapped] at reacts
        exact nests_of_stops waits fetched reacts rfl fun _ => .loses returned stack mapped

/-- Any other word leaves the calls alone. -/
theorem nests_of_other (other : word.opcode ≠ Opcode.call ∧ word.opcode ≠ Opcode.ret)
    : Nests memory head word (head.step memory traceCommands).nestings
        (head.step memory traceCommands) := by
  rw [← Command.opcode_ofWord] at other
  obtain ⟨silent, stack, straight, unaborted⟩ :=
    perform_passes memory (head.recordWord word) (head.cache.difference word) other
  rw [Command.opcode_ofWord] at other straight
  have line (plain : word.opcode ≠ Opcode.jump)
      : Address.mask ((head.react memory word).execution.list.pc + 4)
        = Address.mask (head.list.pc + 4) :=
    congrArg (fun pc => Address.mask (pc + 4)) (straight plain)
  cases ending : (head.react memory word).ending with
  | none =>
      refine nests_of_continues waits fetched rfl ending fun _ => ?_
      rw [react, silent]
      exact .passes other stack line nofun
  | some ending' =>
      refine nests_of_stops waits fetched rfl ending fun _ => ?_
      rw [react, silent]
      refine .passes other stack line fun last seen aborted => ?_
      cases aborted
      exact unaborted ending

/-- Every word does to the calls what its opcode says. -/
theorem nests_step (placed : head.list.Placed) (traceCommands : Bool)
    : Nests memory head word (head.step memory traceCommands).nestings
        (head.step memory traceCommands) := by
  by_cases called : word.opcode = Opcode.call
  · exact nests_of_call waits fetched called
  · by_cases returned : word.opcode = Opcode.ret
    · exact nests_of_ret waits fetched placed returned
    · exact nests_of_other waits fetched ⟨called, returned⟩

end Words

-----------------------------------------------------------------------------------------
-- Turns
-----------------------------------------------------------------------------------------

/-- The list is about to carry out a RET to an address that is not mapped. -/
def LosesReturn (memory : Memory) (head : Execution)
    : Prop :=
  ¬head.list.isStalled
  ∧ ∃ word address outer, memory.readWord head.list.pc = .ok word ∧ Word.opcode word = Opcode.ret
    ∧ head.list.stack = address :: outer ∧ ¬memory.isMapped address

/-- What a word does to the calls is what is told of it, unless it loses a return address. -/
theorem Nests.replay {told : List Event} {turn : Progress}
    (nests : Nests memory head word told turn) (waits : ¬head.list.isStalled)
    (fetched : memory.readWord head.list.pc = .ok word)
    : (¬head.LosesReturn memory ∧ replay? head.list.stack told = some turn.execution.list.stack)
      ∨ (head.LosesReturn memory ∧ told = []
        ∧ ∃ address last seen, turn = .ended .aborted last seen
          ∧ head.list.stack = address :: last.list.stack ∧ ¬memory.isMapped address) := by
  -- A return address is lost by a RET only, and only where one is on top that is not mapped.
  have keeps (kept : word.opcode = Opcode.ret → ∀ address outer,
      head.list.stack = address :: outer → memory.isMapped address)
      : ¬head.LosesReturn memory := by
    rintro ⟨-, other, address, outer, read, returned, stack, unmapped⟩
    rw [fetched] at read
    cases read
    exact unmapped (kept returned address outer stack)
  have noReturn (called : word.opcode = Opcode.call) : ¬word.opcode = Opcode.ret := by
    rw [called]
    decide
  cases nests with
  | calls called mapped room pc stack =>
      refine .inl ⟨keeps fun returned => absurd returned (noReturn called), ?_⟩
      rw [replay?, Event.nest?, if_pos room, Progress.execution, stack]
      rfl
  | refuses called refused pc stack =>
      exact .inl ⟨keeps fun returned => absurd returned (noReturn called), congrArg some stack.symm⟩
  | returns returned stack mapped pc =>
      refine .inl ⟨keeps fun _ address outer top => ?_, ?_⟩
      · rw [stack] at top
        cases top
        exact mapped
      · rw [replay?, stack, Event.nest?]
        simp only [if_true]
        rfl
  | ignores returned none pc stack =>
      refine .inl ⟨keeps fun _ address outer top => ?_, ?_⟩
      · rw [none] at top
        cases top
      · rw [none, replay?, Progress.execution, stack]
  | loses returned stack unmapped =>
      exact .inr ⟨⟨waits, word, _, _, fetched, returned, stack, unmapped⟩, rfl, _, _, _, rfl, stack,
        unmapped⟩
  | passes other stack =>
      exact .inl ⟨keeps fun returned => absurd returned other.2, congrArg some stack.symm⟩

/-- A word leaves the calls that were open, or the one that it opens itself. -/
theorem Nests.placed {told : List Event} {turn : Progress}
    (nests : Nests memory head word told turn) (placed : head.list.Placed)
    (pc : turn.execution.list.pc.IsMasked)
    : turn.execution.list.Placed := by
  have masked := placed.stack
  have shallow := placed.shallow
  cases nests with
  | calls _ _ room _ stack =>
      refine ⟨pc, ?_, ?_⟩
      · rw [Progress.execution, stack]
        exact List.forall_mem_cons.mpr ⟨Address.isMasked_mask _, masked⟩
      · rw [Progress.execution, stack]
        exact room
  | refuses _ _ _ stack | passes _ stack =>
      rw [← stack] at masked shallow
      exact ⟨pc, masked, shallow⟩
  | returns _ stack | loses _ stack =>
      rw [stack] at masked shallow
      exact ⟨pc, (List.forall_mem_cons.mp masked).2, Nat.le_of_succ_le shallow⟩
  | ignores _ none _ stack =>
      rw [none, ← stack] at masked shallow
      exact ⟨pc, masked, shallow⟩

/-- A turn after which a list runs on leaves the calls that what is told of it leaves. -/
theorem replay_of_running (placed : head.list.Placed)
    (stepped : head.step memory traceCommands = .running next seen)
    : ¬head.LosesReturn memory
      ∧ replay? head.list.stack (seen.filterMap Occurrence.event?) = some next.list.stack
      ∧ next.list.Placed := by
  cases turn_of_step stepped with
  | executes waits word fetched reaction =>
      have nests := nests_step waits fetched placed traceCommands
      rw [stepped] at nests
      refine and_assoc.mp ⟨?_, nests.placed placed (Address.isMasked_mask _)⟩
      rcases nests.replay waits fetched with kept | ⟨-, -, _, _, _, ended, -⟩
      · rw [← replay?_filter]
        exact kept
      · cases ended

/-- So does the last turn, unless it loses a return address. -/
theorem replay_of_ended {ending : Ending} (placed : head.list.Placed)
    (ended : head.step memory traceCommands = .ended ending last seen)
    : (¬head.LosesReturn memory
        ∧ replay? head.list.stack (seen.filterMap Occurrence.event?) = some last.list.stack)
      ∨ (head.LosesReturn memory ∧ ending = .aborted
        ∧ replay? head.list.stack (seen.filterMap Occurrence.event?) = some head.list.stack
        ∧ ∃ address, head.list.stack = address :: last.list.stack
          ∧ ¬memory.isMapped address) := by
  cases turn_of_step ended with
  | stalls stalled => exact .inl ⟨fun loses => loses.1 stalled, rfl⟩
  | fails _ error unreadable =>
      refine .inl ⟨?_, rfl⟩
      rintro ⟨-, word, _, _, fetched, -⟩
      rw [unreadable] at fetched
      cases fetched
  | ends waits word fetched =>
      have nests := nests_step waits fetched placed traceCommands
      rw [ended] at nests
      rw [← replay?_filter]
      rcases nests.replay waits fetched with
        kept | ⟨loses, silent, address, _, _, same, stack, lost⟩
      · exact .inl kept
      · cases same
        rw [show (List.filterMap _ _).filter Event.isNesting = [] from silent]
        exact .inr ⟨loses, rfl, rfl, address, stack, lost⟩

-----------------------------------------------------------------------------------------
-- Passages
-----------------------------------------------------------------------------------------

/-- On a passage the calls are what is told of them, by induction on the turns. -/
theorem Passage.replay {heads : List Execution}
    (passage : Passage memory traceCommands first heads seen last) (placed : first.list.Placed)
    : replay? first.list.stack (seen.filterMap Occurrence.event?) = some last.list.stack
      ∧ last.list.Placed := by
  induction passage with
  | here => exact ⟨rfl, placed⟩
  | turn stepped _ ih =>
      obtain ⟨-, reached, placed⟩ := replay_of_running placed stepped
      obtain ⟨led, placed⟩ := ih placed
      rw [List.filterMap_append, replay?_append reached]
      exact ⟨led, placed⟩

/-- What is told of calls and returns on a passage is told in a turn at one of its loop heads, by
induction on the turns.
-/
theorem Passage.told {heads : List Execution} {event : Event}
    (passage : Passage memory traceCommands first heads seen last)
    (member : event ∈ Occurrence.nestings seen)
    : ∃ before happened head, Passage memory traceCommands first before happened head
        ∧ event ∈ (head.step memory traceCommands).nestings := by
  induction passage with
  | here => cases member
  | @turn execution _ _ _ _ _ stepped _ ih =>
      rw [Occurrence.nestings_append] at member
      rcases List.mem_append.mp member with member | member
      · refine ⟨[], [], execution, .here execution, ?_⟩
        rw [stepped]
        exact member
      · obtain ⟨before, happened, head, passage, told⟩ := ih member
        exact ⟨_, _, head, .turn stepped passage, told⟩

/-- So is what is told of them over a run. -/
theorem Runs.told {fuel : Nat} {ending : Ending} {event : Event}
    (runs : Runs memory traceCommands fuel first ending last seen)
    (member : event ∈ Occurrence.nestings seen)
    : ∃ before happened head, Passage memory traceCommands first before happened head
        ∧ event ∈ (head.step memory traceCommands).nestings := by
  obtain ⟨heads, head, early, late, passage, ended, -, rfl⟩ := runs
  rw [Occurrence.nestings_append] at member
  rcases List.mem_append.mp member with member | member
  · exact passage.told member
  · refine ⟨heads, early, head, passage, ?_⟩
    rw [ended]
    exact member

/-- A call is told of only where a CALL is carried out. -/
theorem Nests.called {told : List Event} {turn : Progress} {target back : Address}
    (nests : Nests memory head word told turn) (member : .call target back ∈ told)
    : word.opcode = Opcode.call ∧ target = head.target word.operand
      ∧ back = Address.mask (head.list.pc + 4) ∧ memory.isMapped target := by
  cases nests with
  | calls called mapped =>
      cases List.mem_singleton.mp member
      exact ⟨called, rfl, rfl, mapped⟩
  | _ => simp at member

theorem called_of_told {target back : Address} (placed : head.list.Placed)
    (told : .call target back ∈ (head.step memory traceCommands).nestings)
    : ∃ word, memory.readWord head.list.pc = .ok word ∧ Word.opcode word = Opcode.call
        ∧ target = head.target (Word.operand word) ∧ back = Address.mask (head.list.pc + 4)
        ∧ memory.isMapped target := by
  have turn := turn_step memory traceCommands head
  generalize stepped : head.step memory traceCommands = progress at turn
  cases turn with
  | stalls | fails =>
      rw [stepped] at told
      cases told
  | executes waits word fetched | ends waits word fetched =>
      exact ⟨word, fetched, (nests_step waits fetched placed traceCommands).called told⟩

/-- A list that has come to a loop head at which it loses a return address ends there. -/
theorem Runs.ends_of_losesReturn {fuel : Nat} {ending : Ending} (placed : first.list.Placed)
    (runs : Runs memory traceCommands fuel first ending last seen)
    (loses : first.LosesReturn memory)
    : first.step memory traceCommands = .ended ending last seen := by
  obtain ⟨_, head, early, late, passage, ended, -, rfl⟩ := runs
  cases passage with
  | here => exact ended
  | turn stepped => exact absurd loses (replay_of_running placed stepped).1

end Execution

end GraphicsEngine
