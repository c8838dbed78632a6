import GraphicsEngine.Proofs.Effects
import GraphicsEngine.Proofs.Execution.Announcements

/-! What the renderer is given: of all words that are fetched those that do not steer the engine, in
the order in which they are fetched, each with the bits in which it differs from the last word of
its opcode before it.
-/

namespace GraphicsEngine

-----------------------------------------------------------------------------------------
-- Words and what is made of them
-----------------------------------------------------------------------------------------

/-- The event hands a command to the renderer. -/
def Event.isExecute
    : Event → Bool
  | execute .. => true
  | jump .. | call .. | ret .. | signal .. | finish .. | reset => false

/-- The words that were read as commands, first things first. -/
def Occurrence.words (seen : List Occurrence)
    : List Word :=
  (seen.filterMap fetch?).map Prod.snd

/-- What the renderer was handed. -/
def Occurrence.executed (seen : List Occurrence)
    : List Event :=
  (seen.filterMap event?).filter Event.isExecute

@[simp] theorem Occurrence.words_append (earlier later : List Occurrence)
    : words (earlier ++ later) = words earlier ++ words later := by
  simp [words]

@[simp] theorem Occurrence.executed_append (earlier later : List Occurrence)
    : executed (earlier ++ later) = executed earlier ++ executed later := by
  simp [executed]

theorem Occurrence.words_toList (trace : Trace)
    : words trace.toList = trace.words := by
  rw [words, Trace.words, Trace.fetches, Array.toList_filterMap]

theorem Occurrence.executed_toList (trace : Trace)
    : executed trace.toList = trace.events.filter Event.isExecute := by
  rw [executed, Trace.events, Array.toList_filterMap]

namespace CommandCache

/-- The last of the words that has the opcode, or else the word that the cache holds for it. -/
def latest (cache : CommandCache) (words : List Word) (opcode : Opcode)
    : Word :=
  (words.filter (fun word => Word.opcode word = opcode)).getLast?.getD (cache.get opcode)

/-- What the renderer is handed of words that are carried out in a row: every word that does not
steer the engine, with the bits in which it differs from the last word of its opcode.
-/
def forwarded (cache : CommandCache) (words : List Word)
    : List Event :=
  words.zipIdx.filterMap fun (word, index) =>
    if (Word.opcode word).isControl then
      none
    else
      some (.execute (Word.opcode word) (Word.operand word)
        (word ^^^ cache.latest (words.take index) (Word.opcode word)))

/-- The cache after words that are carried out in a row. -/
def putAll (cache : CommandCache) (words : List Word)
    : CommandCache :=
  words.foldl put cache

variable (cache : CommandCache)

/-- A word in front is among those before all others, or is already in the cache for them. -/
theorem latest_cons (word : Word) (rest : List Word) (opcode : Opcode)
    : cache.latest (word :: rest) opcode = (cache.put word).latest rest opcode := by
  rw [latest, latest, get_put]
  by_cases same : Word.opcode word = opcode
  · rw [List.filter_cons_of_pos (by simp [same]), if_pos same.symm, List.getLast?_cons]
    rfl
  · rw [List.filter_cons_of_neg (by simp [same]), if_neg (Ne.symm same)]

/-- The cache holds the last word of every opcode, by induction on the words. -/
theorem get_putAll (words : List Word) (opcode : Opcode)
    : (cache.putAll words).get opcode = cache.latest words opcode := by
  induction words generalizing cache with
  | nil => rfl
  | cons word rest ih =>
      rw [latest_cons, ← ih]
      rfl

/-- What is made of the first word does not depend on the others, and they find it in the cache. -/
theorem forwarded_cons (word : Word) (rest : List Word)
    : cache.forwarded (word :: rest)
      = (if (Word.opcode word).isControl then []
          else [.execute (Word.opcode word) (Word.operand word) (cache.difference word)])
        ++ (cache.put word).forwarded rest := by
  have behind : (rest.zipIdx 1).filterMap (fun (later, index) =>
      if (Word.opcode later).isControl then none
      else some (Event.execute (Word.opcode later) (Word.operand later)
        (later ^^^ cache.latest ((word :: rest).take index) (Word.opcode later))))
      = (cache.put word).forwarded rest := by
    rw [List.zipIdx_succ, List.filterMap_map, forwarded]
    simp only [Function.comp_def, List.take_succ_cons, latest_cons]
  rw [forwarded, List.zipIdx_cons, List.filterMap_cons, behind]
  by_cases steers : (Word.opcode word).isControl
  · simp only [if_pos steers, List.nil_append]
  · simp only [if_neg steers, List.take_zero]
    rfl

/-- What is made of words in a row is made of the earlier ones first, by induction on them. -/
theorem forwarded_append (earlier later : List Word)
    : cache.forwarded (earlier ++ later)
      = cache.forwarded earlier ++ (cache.putAll earlier).forwarded later := by
  induction earlier generalizing cache with
  | nil => rfl
  | cons word rest ih =>
      rw [List.cons_append, forwarded_cons, forwarded_cons, ih, List.append_assoc]
      rfl

/-- No word that steers the engine is among what the renderer is handed. -/
theorem isControl_of_forwarded {words : List Word} {opcode : Opcode} {operand difference : UInt32}
    (handed : .execute opcode operand difference ∈ cache.forwarded words)
    : opcode.isControl = false := by
  obtain ⟨⟨word, index⟩, -, made⟩ := List.mem_filterMap.mp handed
  dsimp only at made
  split at made
  · cases made
  · next renders =>
    cases made
    simpa using renders

end CommandCache

/-- What has been taken in: the last word of every opcode, and how many commands were counted. -/
structure Intake where
  cache : CommandCache
  commands : Nat

/-- Over a stretch of time every word that was read is kept and counted, and what the renderer was
handed is what these words come to.
-/
structure Intake.Forwards (before after : Intake) (seen : List Occurrence)
    : Prop where
  executed : Occurrence.executed seen = before.cache.forwarded (Occurrence.words seen)
  cache : after.cache = before.cache.putAll (Occurrence.words seen)
  commands : after.commands = before.commands + (Occurrence.words seen).length

namespace Intake.Forwards

variable {first second third : Intake} {seen later : List Occurrence}

/-- Where no word is read and nothing is handed on, nothing has to change. -/
theorem of_silent (words : Occurrence.words seen = []) (executed : Occurrence.executed seen = [])
    : first.Forwards first seen :=
  ⟨by rw [words, executed]; rfl, by rw [words]; rfl, by rw [words]; rfl⟩

/-- What is noticed is neither read nor handed on. -/
theorem notice (forwards : first.Forwards second seen) (given : Notice)
    : first.Forwards second (.notice given :: seen) :=
  ⟨forwards.executed, forwards.cache, forwards.commands⟩

/-- Two stretches of time, one right after the other, are one. -/
theorem trans (earlier : first.Forwards second seen) (behind : second.Forwards third later)
    : first.Forwards third (seen ++ later) where
  executed := by
    rw [Occurrence.executed_append, Occurrence.words_append, CommandCache.forwarded_append,
      earlier.executed, behind.executed, earlier.cache]
  cache := by
    rw [Occurrence.words_append, behind.cache, earlier.cache, CommandCache.putAll,
      CommandCache.putAll, CommandCache.putAll, List.foldl_append]
  commands := by
    rw [Occurrence.words_append, behind.commands, earlier.commands, List.length_append,
      Nat.add_assoc]

end Intake.Forwards

-----------------------------------------------------------------------------------------
-- Turns
-----------------------------------------------------------------------------------------

/-- A word that does not steer the engine is for the renderer, by cases on the opcodes that are
carried out in some other way.
-/
theorem Command.ofWord_of_renders {word : Word} (renders : ¬word.opcode.isControl)
    : ofWord word = .render word.opcode word.operand := by
  unfold ofWord
  split
  case h_10 => rfl
  all_goals next same =>
    rw [same] at renders
    exact absurd rfl renders

/-- A word that steers the engine is not for the renderer, opcode by opcode. -/
theorem Command.ofWord_ne_render {word : Word} (steers : word.opcode.isControl) (opcode : Opcode)
    (operand : UInt32)
    : ofWord word ≠ .render opcode operand := by
  simp only [Opcode.isControl, Opcode.controls, List.contains_iff_mem, List.mem_cons,
    List.not_mem_nil, or_false] at steers
  intro made
  rcases steers with same | same | same | same | same | same | same | same | same
  all_goals
    rw [ofWord, same] at made
    cases made

namespace Execution

def intake (execution : Execution)
    : Intake :=
  ⟨execution.cache, execution.stats.commands⟩

/-- Raising an interrupt tells the renderer nothing and changes no word in the cache. -/
theorem raise_intake (execution : Execution)
    : execution.raise.1.intake = execution.intake
      ∧ Occurrence.executed execution.raise.2 = [] := by
  generalize raised : execution.raise = result
  have raises : Raises execution result := raised ▸ raises_raise execution
  cases raises <;> exact ⟨rfl, rfl⟩

variable {memory : Memory} {traceCommands : Bool} {execution next first last : Execution}
  {seen : List Occurrence} {ending : Ending}

/-- Carrying out a command changes no word in the cache and counts no command. -/
theorem Performs.intake {reaction : Reaction} (performs : Performs memory execution reaction)
    : reaction.execution.intake = execution.intake := by
  cases performs with
  | loses _ _ _ _ _ same =>
      rw [same]
      rfl
  | signals | finishes => exact (raise_intake _).1
  | _ => rfl

/-- A command that steers the engine hands nothing to the renderer, case by case on the command and
on what it tests.
-/
theorem executed_perform (memory : Memory) (execution : Execution) (difference : UInt32)
    {command : Command} (steers : ∀ opcode operand, command ≠ .render opcode operand)
    : Occurrence.executed (execution.perform memory difference command).trace = [] := by
  cases command with
  | nop | signal | finish | offset _ | origin => rfl
  | render opcode operand => exact absurd rfl (steers opcode operand)
  | jump operand =>
      simp only [perform, jump]
      split <;> rfl
  | call operand =>
      simp only [perform, call]
      split
      · split <;> rfl
      · rfl
  | ret =>
      simp only [perform, ret]
      split
      · rfl
      · split <;> rfl
  | endMark operand =>
      simp only [perform, endMark]
      split
      · exact (raise_intake _).2
      · exact (raise_intake _).2
      · rfl

/-- A word that is carried out is handed on if it does not steer the engine, with its difference
from the word in the cache that it takes the place of.
-/
theorem executed_react (memory : Memory) (execution : Execution) (word : Word)
    : Occurrence.executed (execution.react memory word).trace
      = execution.cache.forwarded [word] := by
  rw [CommandCache.forwarded_cons, react]
  split
  · next steers => exact executed_perform _ _ _ (Command.ofWord_ne_render steers)
  · next renders =>
    rw [Command.ofWord_of_renders renders]
    rfl

/-- A word that is carried out is kept and counted, and handed on if it does not steer the engine.
-/
theorem forwards_of_fetched (traceCommands : Bool) {word : Word} {reaction : Reaction}
    (performs : Performs memory (execution.recordWord word) reaction)
    (same : reaction = execution.react memory word)
    : execution.intake.Forwards reaction.execution.intake
        (execution.fetchTrace traceCommands word ++ reaction.trace) := by
  have words : Occurrence.words (execution.fetchTrace traceCommands word ++ reaction.trace)
      = [word] := by
    rw [Occurrence.words, ((reacts_of_eq same).heeds traceCommands).fetches]
    rfl
  have silent : Occurrence.executed (execution.fetchTrace traceCommands word) = [] := by
    cases traceCommands <;> rfl
  refine ⟨?_, ?_, ?_⟩
  · rw [words, Occurrence.executed_append, silent, same, List.nil_append]
    exact executed_react memory execution word
  · rw [words, performs.intake]
    rfl
  · rw [words, performs.intake]
    rfl

/-- A turn after which a list runs on keeps, counts and hands on the word that it carries out. -/
theorem forwards_of_running (stepped : execution.step memory traceCommands = .running next seen)
    : execution.intake.Forwards next.intake seen := by
  cases turn_of_step stepped with
  | executes _ _ _ _ performs _ same =>
      exact forwards_of_fetched traceCommands performs same

/-- So does the last turn, if it carries out a word. -/
theorem forwards_of_ended (ended : execution.step memory traceCommands = .ended ending last seen)
    : execution.intake.Forwards last.intake seen := by
  cases turn_of_step ended with
  | stalls | fails => exact .of_silent rfl rfl
  | ends _ _ _ _ performs _ _ same =>
      exact forwards_of_fetched traceCommands performs same

/-- A passage keeps, counts and hands on all words, by induction on its turns. -/
theorem Passage.forwards {heads : List Execution}
    (passage : Passage memory traceCommands first heads seen last)
    : first.intake.Forwards last.intake seen := by
  induction passage with
  | here => exact .of_silent rfl rfl
  | turn stepped _ ih => exact (forwards_of_running stepped).trans ih

/-- A run keeps, counts and hands on all words that it fetches. -/
theorem Runs.forwards {fuel : Nat}
    (runs : Runs memory traceCommands fuel first ending last seen)
    : first.intake.Forwards last.intake seen := by
  obtain ⟨_, _, _, _, passage, ended, -, rfl⟩ := runs
  exact passage.forwards.trans (forwards_of_ended ended)

end Execution

end GraphicsEngine
