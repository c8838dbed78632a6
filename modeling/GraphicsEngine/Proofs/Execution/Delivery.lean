import GraphicsEngine.Proofs.Execution.Announcements

/-! Interrupts reach their receiver in the order in which they are raised, whether they are
delivered at once or wait until the one being served is done.
-/

namespace GraphicsEngine

/-- Interrupts wait only while one is being served. -/
def Interrupts.Orderly (interrupts : Interrupts)
    : Prop :=
  interrupts.serving = false → interrupts.pending = #[]

/-- How far interrupts have come: which of them wait, and how many have been raised. -/
structure Delivery where
  interrupts : Interrupts
  count : Nat

namespace Delivery

/-- What waited before and has been raised since is, in this order, what has been delivered since
and waits now. Every interrupt that has been raised is counted.
-/
structure Conveys (before after : Delivery) (seen : List Occurrence)
    : Prop where
  order
    : before.interrupts.pending.toList ++ seen.filterMap Occurrence.raised?
      = seen.filterMap Occurrence.delivered? ++ after.interrupts.pending.toList
  counted : after.count = before.count + (seen.filterMap Occurrence.raised?).length
  orderly : after.interrupts.Orderly

variable {first second third : Delivery} {seen later : List Occurrence}

/-- Where no interrupt is raised or delivered, those that waited wait. -/
theorem Conveys.of_silent (orderly : second.interrupts.Orderly)
    (pending : second.interrupts.pending = first.interrupts.pending)
    (count : second.count = first.count)
    (raised : seen.filterMap Occurrence.raised? = [])
    (delivered : seen.filterMap Occurrence.delivered? = [])
    : first.Conveys second seen where
  order := by rw [raised, delivered, pending, List.append_nil, List.nil_append]
  counted := by rw [raised, count, List.length_nil, Nat.add_zero]
  orderly := orderly

/-- What was delivered first has been raised first. -/
theorem Conveys.trans (earlier : first.Conveys second seen) (behind : second.Conveys third later)
    : first.Conveys third (seen ++ later) where
  order := by
    rw [List.filterMap_append, List.filterMap_append, ← List.append_assoc, earlier.order,
      List.append_assoc, behind.order, List.append_assoc]
  counted := by
    rw [behind.counted, earlier.counted, List.filterMap_append, List.length_append, Nat.add_assoc]
  orderly := behind.orderly

end Delivery

namespace Execution

def delivery (execution : Execution)
    : Delivery :=
  ⟨execution.interrupts, execution.stats.interrupts⟩

/-- An interrupt that is raised is delivered at once, unless others may wait already. -/
theorem raise_conveys {execution : Execution} (orderly : execution.interrupts.Orderly)
    : execution.delivery.Conveys execution.raise.1.delivery execution.raise.2 := by
  generalize raised : execution.raise = result
  have raises : Raises execution result := raised ▸ raises_raise execution
  cases raises with
  | silent => exact .of_silent orderly rfl rfl rfl rfl
  | defers _ serving =>
      refine ⟨Array.toList_push.symm, rfl, fun idle => ?_⟩
      cases serving.symm.trans idle
  | delivers _ idle =>
      have none : execution.interrupts.pending = #[] := orderly idle
      refine ⟨?_, rfl, orderly⟩
      simp only [delivery, none]
      rfl

/-- What is seen of a raised interrupt comes behind what is seen of the announcement. -/
theorem raise_conveys_behind {execution marked : Execution}
    (orderly : execution.interrupts.Orderly) (same : marked.delivery = execution.delivery)
    {notices : List Occurrence} (plain : notices.all Occurrence.isPlain) (told : Event)
    : execution.delivery.Conveys marked.raise.1.delivery
        (notices ++ .event told :: marked.raise.2) := by
  have noticed : execution.delivery.Conveys marked.delivery (notices ++ [.event told]) := by
    rw [same]
    refine .of_silent orderly rfl rfl ?_ ?_
    · rw [List.filterMap_append, Occurrence.raised_of_plain plain]
      rfl
    · rw [List.filterMap_append, Occurrence.delivered_of_plain plain]
      rfl
  rw [List.append_cons]
  exact noticed.trans (raise_conveys noticed.orderly)

variable {memory : Memory} {traceCommands : Bool} {execution next last : Execution}
  {seen : List Occurrence} {ending : Ending}

/-- Whatever a word leads to, interrupts keep their order. -/
theorem Reacts.conveys {word : Word} {reaction : Reaction} (reacts : Reacts execution word reaction)
    (orderly : execution.interrupts.Orderly)
    : execution.delivery.Conveys reaction.execution.delivery
        (execution.fetchTrace traceCommands word ++ reaction.trace) := by
  obtain ⟨-, -, unraised, undelivered⟩ := fetchTrace_seen traceCommands execution word
  have fetched : execution.delivery.Conveys execution.delivery
      (execution.fetchTrace traceCommands word) :=
    .of_silent orderly rfl rfl unraised undelivered
  refine fetched.trans ?_
  cases reacts with
  | plainly _ plain interrupts counted =>
      refine .of_silent ?_ (congrArg Interrupts.pending interrupts) counted
        (Occurrence.raised_of_plain plain) (Occurrence.delivered_of_plain plain)
      simp only [delivery, interrupts]
      exact orderly
  | carriesOut _ notices plain marked _ _ _ interrupts counted =>
      refine raise_conveys_behind orderly ?_ plain _
      rw [delivery, interrupts, counted, delivery]

/-- A turn after which a list runs on keeps the order of interrupts. -/
theorem conveys_of_running (stepped : execution.step memory traceCommands = .running next seen)
    (orderly : execution.interrupts.Orderly)
    : execution.delivery.Conveys next.delivery seen := by
  cases turn_of_step stepped with
  | executes _ _ _ _ _ _ same => exact (reacts_of_eq same).conveys orderly

/-- The last turn keeps the order of interrupts. -/
theorem conveys_of_ended (ended : execution.step memory traceCommands = .ended ending last seen)
    (orderly : execution.interrupts.Orderly)
    : execution.delivery.Conveys last.delivery seen := by
  cases turn_of_step ended with
  | stalls | fails => exact .of_silent orderly rfl rfl rfl rfl
  | ends _ _ _ _ _ _ _ same => exact (reacts_of_eq same).conveys orderly

/-- So does every passage, by induction on its turns. -/
theorem Passage.conveys {heads : List Execution} {first : Execution}
    (passage : Passage memory traceCommands first heads seen last)
    (orderly : first.interrupts.Orderly)
    : first.delivery.Conveys last.delivery seen := by
  induction passage with
  | here => exact .of_silent orderly rfl rfl rfl rfl
  | turn stepped _ ih =>
      have turned := conveys_of_running stepped orderly
      exact turned.trans (ih turned.orderly)

/-- A run keeps the order of interrupts. -/
theorem Runs.conveys {fuel : Nat} {first : Execution}
    (runs : Runs memory traceCommands fuel first ending last seen)
    (orderly : first.interrupts.Orderly)
    : first.delivery.Conveys last.delivery seen := by
  obtain ⟨_, _, _, _, passage, ended, -, rfl⟩ := runs
  have passed := passage.conveys orderly
  exact passed.trans (conveys_of_ended ended passed.orderly)

-----------------------------------------------------------------------------------------
-- Where no interrupt is being served
-----------------------------------------------------------------------------------------

/-- An interrupt that is raised while none is being served does not wait. -/
theorem raise_interrupts {execution : Execution} (idle : execution.interrupts.serving = false)
    : execution.raise.1.interrupts = execution.interrupts := by
  generalize raised : execution.raise = result
  have raises : Raises execution result := raised ▸ raises_raise execution
  cases raises with
  | silent | delivers => rfl
  | defers _ serving => cases serving.symm.trans idle

/-- Whatever a word leads to while none is being served, no interrupt waits for it. -/
theorem Reacts.interrupts {word : Word} {reaction : Reaction}
    (reacts : Reacts execution word reaction) (idle : execution.interrupts.serving = false)
    : reaction.execution.interrupts = execution.interrupts := by
  cases reacts with
  | plainly _ _ same => exact same
  | carriesOut _ _ _ _ _ _ _ same => exact (raise_interrupts (same ▸ idle)).trans same

/-- Nor does one wait over a passage, by induction on its turns. -/
theorem Passage.interrupts {heads : List Execution} {first : Execution}
    (passage : Passage memory traceCommands first heads seen last)
    (idle : first.interrupts.serving = false)
    : last.interrupts = first.interrupts := by
  induction passage with
  | here => rfl
  | turn stepped _ ih =>
      cases turn_of_step stepped with
      | executes _ _ _ _ _ _ same =>
          have turned := (reacts_of_eq same).interrupts idle
          exact (ih (turned ▸ idle)).trans turned

/-- A run leaves interrupts alone while none is being served. -/
theorem Runs.interrupts {fuel : Nat} {first : Execution}
    (runs : Runs memory traceCommands fuel first ending last seen)
    (idle : first.interrupts.serving = false)
    : last.interrupts = first.interrupts := by
  obtain ⟨_, _, _, _, passage, ended, -, rfl⟩ := runs
  have passed := passage.interrupts idle
  refine Eq.trans ?_ passed
  cases turn_of_step ended with
  | stalls | fails => rfl
  | ends _ _ _ _ _ _ _ same => exact (reacts_of_eq same).interrupts (passed ▸ idle)

end Execution

end GraphicsEngine
