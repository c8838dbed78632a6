import GraphicsEngine.Proofs.Execution.Turns
import Mathlib.Data.List.Basic

/-! SIGNAL and FINISH only announce what the END right behind them carries out. What a list tells
the renderer of them, which interrupts it raises, and whether it reaches its end can all be read off
the words that were fetched, two in a row at a time.
-/

namespace GraphicsEngine

-----------------------------------------------------------------------------------------
-- Words in a row
-----------------------------------------------------------------------------------------

/-- A fetched word and the word fetched right before it, wherever that one stood. -/
structure Succession where
  before : Word
  /-- The address of the later word. -/
  pc : Address
  word : Word
deriving DecidableEq, Repr

namespace Succession

/-- An END behind a FINISH: the list reaches its end. -/
def Finishes (succession : Succession)
    : Prop :=
  succession.word.opcode = Opcode.endMark ∧ succession.before.opcode = Opcode.finish

instance (succession : Succession) : Decidable succession.Finishes :=
  inferInstanceAs (Decidable (_ ∧ _))

/-- What an END tells the renderer of the SIGNAL or FINISH before it. Nothing is told of any other
two words.
-/
def told? (succession : Succession)
    : Option Event :=
  if succession.word.opcode = Opcode.endMark then
    if succession.before.opcode = Opcode.signal then
      some (.signal succession.before.middle succession.before.low succession.word.low)
    else if succession.before.opcode = Opcode.finish then
      some (.finish succession.before.low)
    else
      none
  else
    none

/-- The interrupt of a list that comes with what is told. -/
def interrupt? (list : DisplayList) (succession : Succession)
    : Option Interrupt :=
  succession.told?.map fun _ =>
    { list := list.id
      pc := succession.pc
      channel := list.channel
      token := succession.before.low.toUInt32 }

/-- The interrupt that the list of an execution raises, if it has a channel and interrupts are
enabled.
-/
def raised? (execution : Execution) (succession : Succession)
    : Option Interrupt :=
  if 0 ≤ execution.list.channel ∧ execution.interrupts.enabled then
    succession.interrupt? execution.list
  else
    none

end Succession

/-- Where nothing is told the list does not reach its end. -/
theorem Succession.not_finishes_of_untold {succession : Succession}
    (untold : succession.told? = none)
    : ¬succession.Finishes := by
  rintro ⟨ends, finish⟩
  have noSignal : ¬succession.before.opcode = Opcode.signal := by
    rw [finish]
    decide
  rw [told?, if_pos ends, if_neg noSignal, if_pos finish] at untold
  cases untold

/-- Every fetched word but the first, with the word before it. -/
def successions (fetches : List (Address × Word))
    : List Succession :=
  fetches.zipWith (fun earlier later => ⟨earlier.2, later.1, later.2⟩) fetches.tail

/-- Every fetched word with the word before it, where a given word was before the first one. -/
def following (before : Word)
    : List (Address × Word) → List Succession
  | [] => []
  | (pc, word) :: rest => ⟨before, pc, word⟩ :: following word rest

/-- Behind the first word every word has the one fetched before it, by induction on the fetches. -/
theorem following_cons (before : Word) (pc : Address) (word : Word)
    (rest : List (Address × Word))
    : following before ((pc, word) :: rest)
      = ⟨before, pc, word⟩ :: successions ((pc, word) :: rest) := by
  induction rest generalizing before pc word with
  | nil => rfl
  | cons later rest ih =>
      rw [following, ih]
      rfl

/-- Whether an event belongs to a SIGNAL or a FINISH. -/
def Event.isAnnounced
    : Event → Bool
  | signal .. | finish .. => true
  | execute .. | jump .. | call .. | ret .. | reset => false

/-- All that is told belongs to a SIGNAL or a FINISH. -/
theorem Succession.isAnnounced_of_told? {succession : Succession} {told : Event}
    (tells : succession.told? = some told)
    : told.isAnnounced := by
  unfold told? at tells
  split at tells
  · split at tells
    · cases tells
      rfl
    · split at tells
      · cases tells
        rfl
      · cases tells
  · cases tells

/-- What happened has nothing to do with the fetching of words, with a SIGNAL or FINISH, or with
interrupts.
-/
def Occurrence.isPlain
    : Occurrence → Bool
  | event told => !told.isAnnounced
  | notice _ => true
  | fetched .. | raised _ | delivered _ => false

/-- What is told of SIGNAL and FINISH. -/
def Occurrence.announced (seen : List Occurrence)
    : List Event :=
  (seen.filterMap event?).filter Event.isAnnounced

@[simp] theorem Occurrence.announced_append (earlier later : List Occurrence)
    : announced (earlier ++ later) = announced earlier ++ announced later := by
  simp [announced]

theorem Occurrence.announced_cons_event (told : Event) (later : List Occurrence)
    : announced (.event told :: later)
      = (if told.isAnnounced then [told] else []) ++ announced later := by
  have shown : (event told :: later).filterMap event? = told :: later.filterMap event? := rfl
  rw [announced, announced, shown, List.filter_cons]
  split <;> rfl

section Plain

variable {seen : List Occurrence} (plain : seen.all Occurrence.isPlain)

include plain

/-- A view that shows nothing plain shows nothing where all is plain. -/
theorem Occurrence.filterMap_of_plain {α : Type} {view : Occurrence → Option α}
    (blind : ∀ occurrence : Occurrence, occurrence.isPlain → view occurrence = none)
    : seen.filterMap view = [] :=
  List.filterMap_eq_nil_iff.mpr fun occurrence member =>
    blind occurrence (List.all_eq_true.mp plain occurrence member)

theorem Occurrence.fetches_of_plain
    : seen.filterMap fetch? = [] :=
  filterMap_of_plain plain fun occurrence plain => by cases occurrence <;> first | rfl | cases plain

theorem Occurrence.raised_of_plain
    : seen.filterMap raised? = [] :=
  filterMap_of_plain plain fun occurrence plain => by cases occurrence <;> first | rfl | cases plain

theorem Occurrence.delivered_of_plain
    : seen.filterMap delivered? = [] :=
  filterMap_of_plain plain fun occurrence plain => by cases occurrence <;> first | rfl | cases plain

theorem Occurrence.announced_of_plain
    : announced seen = [] := by
  refine List.filter_eq_nil_iff.mpr fun told member => ?_
  obtain ⟨occurrence, listed, shown⟩ := List.mem_filterMap.mp member
  have plain := List.all_eq_true.mp plain occurrence listed
  cases occurrence with
  | event other =>
      cases shown
      simpa [isPlain] using plain
  | _ => cases shown

end Plain

-----------------------------------------------------------------------------------------
-- Interrupts
-----------------------------------------------------------------------------------------

namespace Execution

/-- The interrupt that the list raises where it stands. -/
def interrupt (execution : Execution)
    : Interrupt :=
  { list := execution.list.id
    pc := execution.list.pc
    channel := execution.list.channel
    token := execution.list.token }

/-- All that raising an interrupt can do. -/
inductive Raises (execution : Execution) : Execution × List Occurrence → Prop
  | silent (off : ¬(0 ≤ execution.list.channel ∧ execution.interrupts.enabled))
    : Raises execution (execution, [])
  | defers (on : 0 ≤ execution.list.channel ∧ execution.interrupts.enabled)
    (serving : execution.interrupts.serving = true)
    : Raises execution
        ({ execution with
            interrupts := { execution.interrupts with
              pending := execution.interrupts.pending.push execution.interrupt }
            stats := { execution.stats with interrupts := execution.stats.interrupts + 1 } },
          [.raised execution.interrupt,
            .notice (.deferred execution.list.id execution.list.token)])
  | delivers (on : 0 ≤ execution.list.channel ∧ execution.interrupts.enabled)
    (idle : execution.interrupts.serving = false)
    : Raises execution
        ({ execution with
            stats := { execution.stats with interrupts := execution.stats.interrupts + 1 } },
          [.raised execution.interrupt, .delivered execution.interrupt])

/-- Raising an interrupt does one of these things, by cases on what it tests. -/
theorem raises_raise (execution : Execution)
    : Raises execution execution.raise := by
  have off : (execution.list.channel < 0 || !execution.interrupts.enabled)
      ↔ ¬(0 ≤ execution.list.channel ∧ execution.interrupts.enabled) := by
    rw [not_and_or, Int32.not_le, Bool.or_eq_true, decide_eq_true_eq, Bool.not_eq_true',
      Bool.not_eq_true]
  unfold raise
  split
  · next silent => exact .silent (off.mp silent)
  · next rings =>
    have on := not_not.mp (mt off.mpr rings)
    cases serving : execution.interrupts.serving with
    | true =>
        rw [Interrupts.raise, if_pos serving]
        exact .defers on serving
    | false =>
        rw [Interrupts.raise, if_neg (by simp [serving])]
        exact .delivers on serving

/-- What a word leads to, as far as announcements go: nothing, or what the word before it has
announced. Then the list is marked with the token before it raises its interrupt.
-/
inductive Reacts (execution : Execution) (word : Word) : Reaction → Prop
  | plainly {reaction : Reaction}
    (untold : Succession.told? ⟨execution.registers.previous, execution.list.pc, word⟩ = none)
    (plain : reaction.trace.all Occurrence.isPlain)
    (interrupts : reaction.execution.interrupts = execution.interrupts)
    (counted : reaction.execution.stats.interrupts = execution.stats.interrupts)
    (unfinished : reaction.ending ≠ some .completed)
    : Reacts execution word reaction
  | carriesOut {told : Event}
    (tells : Succession.told? ⟨execution.registers.previous, execution.list.pc, word⟩ = some told)
    (notices : List Occurrence) (plain : notices.all Occurrence.isPlain) (marked : Execution)
    (list : execution.list.Continues marked.list) (pc : marked.list.pc = execution.list.pc)
    (token : marked.list.token = (Word.low execution.registers.previous).toUInt32)
    (interrupts : marked.interrupts = execution.interrupts)
    (counted : marked.stats.interrupts = execution.stats.interrupts) (ending : Option Ending)
    (finishes : ending = some .completed
      ↔ Succession.Finishes ⟨execution.registers.previous, execution.list.pc, word⟩)
    : Reacts execution word
        { execution := marked.raise.1
          trace := notices ++ .event told :: marked.raise.2
          ending }

/-- An END is the command of an END, and of no other word. -/
theorem ofWord_eq_endMark_iff {word : Word} {operand : UInt32}
    : Command.ofWord word = .endMark operand
      ↔ word.opcode = Opcode.endMark ∧ operand = word.operand := by
  constructor
  · intro command
    unfold Command.ofWord at command
    split at command
    all_goals first
      | cases command
        exact ⟨‹_›, rfl⟩
      | cases command
  · rintro ⟨ends, rfl⟩
    rw [Command.ofWord, ends]
    rfl

/-- A command that is no END has nothing to do with announcements, case by case on the command and
on what it tests.
-/
theorem perform_plain (memory : Memory) (execution : Execution) (difference : UInt32)
    {command : Command} (other : ∀ operand, command ≠ .endMark operand)
    : (execution.perform memory difference command).trace.all Occurrence.isPlain
      ∧ (execution.perform memory difference command).execution.interrupts = execution.interrupts
      ∧ (execution.perform memory difference command).execution.stats = execution.stats
      ∧ (execution.perform memory difference command).ending ≠ some .completed := by
  have goesOn : (none : Option Ending) ≠ some .completed := by simp
  cases command with
  | nop | signal | finish | offset _ | origin | render _ _ => exact ⟨rfl, rfl, rfl, goesOn⟩
  | endMark operand => exact absurd rfl (other operand)
  | jump operand =>
      simp only [perform, jump]
      split <;> exact ⟨rfl, rfl, rfl, goesOn⟩
  | call operand =>
      simp only [perform, call]
      split
      · split <;> exact ⟨rfl, rfl, rfl, goesOn⟩
      · exact ⟨rfl, rfl, rfl, goesOn⟩
  | ret =>
      simp only [perform, ret]
      split
      · exact ⟨rfl, rfl, rfl, goesOn⟩
      · split
        · exact ⟨rfl, rfl, rfl, goesOn⟩
        · exact ⟨rfl, rfl, rfl, by simp⟩

/-- The low half of a word lies within its operand. -/
theorem low_operand (word : Word)
    : Word.low (Word.operand word) = word.low := by
  apply UInt16.toNat_inj.mp
  simp only [Word.low, Word.operand, UInt32.toNat_toUInt16, UInt32.toNat_and, UInt32.reduceToNat]
  rw [show 16777215 = 2 ^ 24 - 1 from rfl, Nat.and_two_pow_sub_one_eq_mod]
  exact Nat.mod_mod_of_dvd _ (by decide)

/-- Every word leads to one of these, by cases on whether it is an END, and on what the word before
it has announced.
-/
theorem reacts_react (memory : Memory) (execution : Execution) (word : Word)
    : Reacts execution word (execution.react memory word) := by
  unfold react
  by_cases ends : word.opcode = Opcode.endMark
  · rw [ofWord_eq_endMark_iff.mpr ⟨ends, rfl⟩]
    simp only [perform, endMark]
    split
    · next signal =>
      have noFinish : ¬Word.opcode execution.registers.previous = Opcode.finish := by
        intro finish
        cases signal.symm.trans finish
      have tells : Succession.told? ⟨execution.registers.previous, execution.list.pc, word⟩
          = some (.signal (Word.middle execution.registers.previous)
            (Word.low execution.registers.previous) (Word.low word.operand)) := by
        rw [low_operand]
        exact (if_pos ends).trans (if_pos signal)
      let marked : Execution := { (execution.recordWord word).charge with
        list := { execution.list with
          token := (Word.low execution.registers.previous).toUInt32
          signal := Word.middle execution.registers.previous } }
      exact .carriesOut tells [_] rfl marked ⟨rfl, rfl, rfl, rfl⟩ rfl rfl rfl rfl none
        (iff_of_false (by simp) fun finishes => noFinish finishes.2)
    · next finish =>
      have noSignal : ¬Word.opcode execution.registers.previous = Opcode.signal := by
        intro signal
        cases finish.symm.trans signal
      have tells : Succession.told? ⟨execution.registers.previous, execution.list.pc, word⟩
          = some (.finish (Word.low execution.registers.previous)) :=
        (if_pos ends).trans ((if_neg noSignal).trans (if_pos finish))
      let marked : Execution := { (execution.recordWord word).charge with
        list := { execution.list with
          state := .completed
          token := (Word.low execution.registers.previous).toUInt32 }
        registers := { (execution.recordWord word).charge.registers with finished := true } }
      exact .carriesOut tells [] rfl marked ⟨rfl, rfl, rfl, rfl⟩ rfl rfl rfl rfl (some .completed)
        ⟨fun _ => ⟨ends, finish⟩, fun _ => rfl⟩
    · next noSignal noFinish =>
      have untold : Succession.told?
          ⟨execution.registers.previous, execution.list.pc, word⟩ = none :=
        (if_pos ends).trans ((if_neg noSignal).trans (if_neg noFinish))
      exact .plainly untold rfl rfl rfl (by simp)
  · obtain ⟨plain, interrupts, stats, unfinished⟩ :=
      perform_plain memory (execution.recordWord word) (execution.cache.difference word)
        fun operand command => ends (ofWord_eq_endMark_iff.mp command).1
    exact .plainly (if_neg ends) plain interrupts (by rw [stats]; rfl) unfinished

theorem reacts_of_eq {memory : Memory} {execution : Execution} {word : Word} {reaction : Reaction}
    (same : reaction = execution.react memory word)
    : Reacts execution word reaction :=
  same ▸ reacts_react memory execution word

-----------------------------------------------------------------------------------------
-- Turns
-----------------------------------------------------------------------------------------

/-- What is seen of a raised interrupt, whether it is delivered or has to wait. -/
theorem raise_seen (execution : Execution)
    : execution.raise.2.filterMap Occurrence.fetch? = []
      ∧ Occurrence.announced execution.raise.2 = []
      ∧ execution.raise.2.filterMap Occurrence.raised?
        = if 0 ≤ execution.list.channel ∧ execution.interrupts.enabled then
            [execution.interrupt]
          else
            [] := by
  generalize raised : execution.raise = result
  have raises : Raises execution result := raised ▸ raises_raise execution
  cases raises with
  | silent off =>
      rw [if_neg off]
      exact ⟨rfl, rfl, rfl⟩
  | defers on | delivers on =>
      rw [if_pos on]
      exact ⟨rfl, rfl, rfl⟩

/-- What is seen of a word that is carried out: the word itself, and of announcements and interrupts
just what the word before it makes of it.
-/
structure Heeds (execution : Execution) (word : Word) (seen : List Occurrence)
    : Prop where
  fetches : seen.filterMap Occurrence.fetch? = [(execution.list.pc, word)]
  announced
    : Occurrence.announced seen
      = (Succession.told? ⟨execution.registers.previous, execution.list.pc, word⟩).toList
  raised
    : seen.filterMap Occurrence.raised?
      = (Succession.raised? execution
          ⟨execution.registers.previous, execution.list.pc, word⟩).toList

theorem fetchTrace_seen (traceCommands : Bool) (execution : Execution) (word : Word)
    : (execution.fetchTrace traceCommands word).filterMap Occurrence.fetch?
        = [(execution.list.pc, word)]
      ∧ Occurrence.announced (execution.fetchTrace traceCommands word) = []
      ∧ (execution.fetchTrace traceCommands word).filterMap Occurrence.raised? = []
      ∧ (execution.fetchTrace traceCommands word).filterMap Occurrence.delivered? = [] := by
  cases traceCommands <;> exact ⟨rfl, rfl, rfl, rfl⟩

/-- A list that is marked with the token of an announcement raises the interrupt that comes with
what is told.
-/
theorem raise_marked {execution marked : Execution} {word : Word} {told : Event}
    (tells : Succession.told? ⟨execution.registers.previous, execution.list.pc, word⟩ = some told)
    (list : execution.list.Continues marked.list) (pc : marked.list.pc = execution.list.pc)
    (token : marked.list.token = (Word.low execution.registers.previous).toUInt32)
    (interrupts : marked.interrupts = execution.interrupts)
    : marked.raise.2.filterMap Occurrence.raised?
      = (Succession.raised? execution
          ⟨execution.registers.previous, execution.list.pc, word⟩).toList := by
  rw [(raise_seen marked).2.2, interrupt, list.id, list.channel, pc, token, interrupts,
    Succession.raised?, Succession.interrupt?, tells]
  split <;> rfl

/-- Every word is carried out so, whatever it leads to. -/
theorem Reacts.heeds {execution : Execution} {word : Word} {reaction : Reaction}
    (reacts : Reacts execution word reaction) (traceCommands : Bool)
    : Heeds execution word (execution.fetchTrace traceCommands word ++ reaction.trace) := by
  obtain ⟨fetched, silent, unraised, -⟩ := fetchTrace_seen traceCommands execution word
  cases reacts with
  | plainly untold plain =>
      refine ⟨?_, ?_, ?_⟩
      · rw [List.filterMap_append, fetched, Occurrence.fetches_of_plain plain]
        rfl
      · rw [Occurrence.announced_append, silent, Occurrence.announced_of_plain plain, untold]
        rfl
      · rw [List.filterMap_append, unraised, Occurrence.raised_of_plain plain,
          Succession.raised?, Succession.interrupt?, untold]
        simp
  | @carriesOut told tells notices plain marked list pc token interrupts =>
      obtain ⟨unfetched, quiet, -⟩ := raise_seen marked
      have raised := raise_marked tells list pc token interrupts
      refine ⟨?_, ?_, ?_⟩
      · rw [List.filterMap_append, fetched, List.filterMap_append,
          Occurrence.fetches_of_plain plain]
        exact congrArg ([(execution.list.pc, word)] ++ ·) unfetched
      · rw [Occurrence.announced_append, silent, Occurrence.announced_append,
          Occurrence.announced_of_plain plain, Occurrence.announced_cons_event, quiet, tells,
          Succession.isAnnounced_of_told? tells]
        rfl
      · rw [List.filterMap_append, unraised, List.filterMap_append,
          Occurrence.raised_of_plain plain]
        exact raised

/-- An END behind a FINISH completes the list, and nothing else does. -/
theorem Reacts.completed_iff {execution : Execution} {word : Word} {reaction : Reaction}
    (reacts : Reacts execution word reaction)
    : reaction.ending = some .completed
      ↔ Succession.Finishes ⟨execution.registers.previous, execution.list.pc, word⟩ := by
  cases reacts with
  | plainly untold _ _ _ unfinished =>
      exact iff_of_false unfinished (Succession.not_finishes_of_untold untold)
  | carriesOut _ _ _ _ _ _ _ _ _ _ finishes => exact finishes

/-- No command enables interrupts or disables them. -/
theorem Reacts.enabled {execution : Execution} {word : Word} {reaction : Reaction}
    (reacts : Reacts execution word reaction)
    : reaction.execution.interrupts.enabled = execution.interrupts.enabled := by
  cases reacts with
  | plainly _ _ interrupts => rw [interrupts]
  | carriesOut _ _ _ marked _ _ _ interrupts =>
      rw [← interrupts]
      generalize raised : marked.raise = result
      have raises : Raises marked result := raised ▸ raises_raise marked
      cases raises <;> rfl

variable {memory : Memory} {traceCommands : Bool} {execution next last : Execution}
  {seen later : List Occurrence} {ending : Ending}

/-- A turn after which a list runs on carries out a word that does not finish the list. -/
theorem heeds_of_running (stepped : execution.step memory traceCommands = .running next seen)
    : ∃ word,
        Heeds execution word seen
        ∧ ¬Succession.Finishes ⟨execution.registers.previous, execution.list.pc, word⟩
        ∧ next.registers.previous = word
        ∧ next.interrupts.enabled = execution.interrupts.enabled := by
  cases turn_of_step stepped with
  | executes _ word _ _ _ continues same =>
      have reacts := reacts_of_eq same
      refine ⟨word, reacts.heeds traceCommands, fun finishes => ?_, rfl, reacts.enabled⟩
      rw [reacts.completed_iff.mpr finishes] at continues
      cases continues

/-- The last turn carries out a word that may finish the list, or nothing at all. -/
theorem heeds_of_ended (ended : execution.step memory traceCommands = .ended ending last seen)
    : (seen.all Occurrence.isPlain ∧ ending ≠ .completed)
      ∨ ∃ word,
          Heeds execution word seen
          ∧ (ending = .completed
            ↔ Succession.Finishes ⟨execution.registers.previous, execution.list.pc, word⟩) := by
  cases turn_of_step ended with
  | stalls | fails => exact .inl ⟨rfl, nofun⟩
  | ends _ word _ _ _ _ stops same =>
      have reacts := reacts_of_eq same
      refine .inr ⟨word, reacts.heeds traceCommands, ?_⟩
      rw [← reacts.completed_iff, stops, Option.some_inj]

-----------------------------------------------------------------------------------------
-- Runs
-----------------------------------------------------------------------------------------

/-- The words that are fetched from a loop head on, each with the word before it. -/
def followed (execution : Execution) (seen : List Occurrence)
    : List Succession :=
  following execution.registers.previous (seen.filterMap Occurrence.fetch?)

/-- What is seen from a loop head to the end of a list's time at the front is what the words in a
row make of each other, and the list reaches its end with the last of them or not at all.
-/
structure Announces (execution : Execution) (ending : Ending) (seen : List Occurrence)
    : Prop where
  announced : Occurrence.announced seen = (execution.followed seen).filterMap Succession.told?
  raised
    : seen.filterMap Occurrence.raised?
      = (execution.followed seen).filterMap (Succession.raised? execution)
  last : ∀ succession ∈ (execution.followed seen).dropLast, ¬succession.Finishes
  completed : ending = .completed ↔ ∃ succession ∈ execution.followed seen, succession.Finishes

/-- Where no word is carried out nothing is announced. -/
theorem Announces.of_plain (plain : seen.all Occurrence.isPlain) (unfinished : ending ≠ .completed)
    : Announces execution ending seen := by
  have none : execution.followed seen = [] := by
    rw [followed, Occurrence.fetches_of_plain plain, following]
  exact {
    announced := by rw [none, Occurrence.announced_of_plain plain, List.filterMap_nil]
    raised := by rw [none, Occurrence.raised_of_plain plain, List.filterMap_nil]
    last := by simp [none]
    completed := by simp [none, unfinished] }

/-- Where a last word is carried out, it may announce something and finish the list. -/
theorem Heeds.announces {word : Word} (heeds : Heeds execution word seen)
    (finishes : ending = .completed
      ↔ Succession.Finishes ⟨execution.registers.previous, execution.list.pc, word⟩)
    : Announces execution ending seen := by
  have single : execution.followed seen
      = [⟨execution.registers.previous, execution.list.pc, word⟩] := by
    rw [followed, heeds.fetches, following, following]
  exact {
    announced := by
      rw [single, heeds.announced, List.filterMap_eq_flatMap_toList, List.flatMap_singleton]
    raised := by
      rw [single, heeds.raised, List.filterMap_eq_flatMap_toList, List.flatMap_singleton]
    last := by simp [single]
    completed := by simp [single, finishes] }

/-- A word that is carried out before all others joins them in front. -/
theorem Announces.cons {word : Word} (announces : Announces next ending later)
    (heeds : Heeds execution word seen)
    (unfinished
      : ¬Succession.Finishes ⟨execution.registers.previous, execution.list.pc, word⟩)
    (previous : next.registers.previous = word)
    (raised : Succession.raised? next = Succession.raised? execution)
    : Announces execution ending (seen ++ later) := by
  have joined : execution.followed (seen ++ later)
      = ⟨execution.registers.previous, execution.list.pc, word⟩ :: next.followed later := by
    rw [followed, List.filterMap_append, heeds.fetches, followed, previous]
    rfl
  refine ⟨?_, ?_, ?_, ?_⟩
  · rw [joined, Occurrence.announced_append, heeds.announced, announces.announced,
      List.filterMap_eq_flatMap_toList, List.filterMap_eq_flatMap_toList, List.flatMap_cons]
  · rw [joined, List.filterMap_append, heeds.raised, announces.raised, raised,
      List.filterMap_eq_flatMap_toList, List.filterMap_eq_flatMap_toList, List.flatMap_cons]
  · rw [joined]
    intro succession member
    cases behind : next.followed later with
    | nil => simp [behind] at member
    | cons second rest =>
        rw [behind, List.dropLast_cons_cons] at member
        rcases List.mem_cons.mp member with rfl | member
        · exact unfinished
        · exact announces.last succession (behind ▸ member)
  · simp [joined, announces.completed, unfinished]

/-- So does a whole run, by induction on its turns from the last one back. -/
theorem Runs.announces {fuel : Nat} {first : Execution}
    (runs : Runs memory traceCommands fuel first ending last seen)
    : Announces first ending seen := by
  obtain ⟨heads, head, early, late, passage, ended, -, rfl⟩ := runs
  induction passage with
  | here =>
      rcases heeds_of_ended ended with ⟨plain, unfinished⟩ | ⟨word, heeds, finishes⟩
      · exact .of_plain plain unfinished
      · exact heeds.announces finishes
  | @turn execution next _ _ _ _ stepped _ ih =>
      obtain ⟨word, heeds, unfinished, previous, enabled⟩ := heeds_of_running stepped
      have continues := continues_of_running stepped
      have raised : Succession.raised? next = Succession.raised? execution := by
        funext succession
        rw [Succession.raised?, Succession.raised?, enabled, continues.channel,
          Succession.interrupt?, Succession.interrupt?, continues.id, continues.channel]
      rw [List.append_assoc]
      exact (ih ended).cons heeds unfinished previous raised

/-- A command that ends a running list completes it with a FINISH only. -/
theorem Performs.completed_iff {reaction : Reaction}
    (performs : Performs memory execution reaction) (running : execution.list.state = .running)
    (stops : reaction.ending = some ending)
    : reaction.execution.list.state = .completed ↔ ending = .completed := by
  cases performs with
  | loses _ _ _ _ _ same =>
      cases stops
      subst same
      exact iff_of_false (by simp [transfer, running]) (by simp)
  | finishes =>
      cases stops
      simp [finish]
  | _ => cases stops

/-- A running list is completed behind its run exactly if it has reached its end. -/
theorem Runs.completed_iff {fuel : Nat} {first : Execution}
    (runs : Runs memory traceCommands fuel first ending last seen)
    (running : first.list.state = .running)
    : last.list.state = .completed ↔ ending = .completed := by
  obtain ⟨_, head, _, _, passage, ended, -, -⟩ := runs
  have running : head.list.state = .running := passage.state.trans running
  cases turn_of_step ended with
  | stalls | fails => exact iff_of_false (by simp [charge, running]) (by simp)
  | ends _ _ _ _ performs _ stops => exact performs.completed_iff running stops

end Execution

end GraphicsEngine
