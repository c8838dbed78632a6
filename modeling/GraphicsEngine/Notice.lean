import GraphicsEngine.Command
import GraphicsEngine.Command.Signal
import GraphicsEngine.DisplayList
import GraphicsEngine.Memory

/-! Notices: what the engine reports about its own work, apart from its effects. A notice is kept
as its cause; `Notice.entry` gives the wording.
-/

namespace GraphicsEngine

/-- How much a notice matters, the most severe first. -/
inductive Severity where
  | error
  | warn
  | info
  | debug
  | trace
deriving DecidableEq, Repr

namespace Severity

def rank
    : Severity → Nat
  | error => 0
  | warn => 1
  | info => 2
  | debug => 3
  | trace => 4

def name
    : Severity → String
  | error => "ERROR"
  | warn => "WARN"
  | info => "INFO"
  | debug => "DEBUG"
  | trace => "TRACE"

/-- A reader who asks for one severity is shown everything that matters at least as much. -/
def shows (asked severity : Severity)
    : Bool :=
  severity.rank ≤ asked.rank

end Severity

/-- Something worth reporting. -/
inductive Notice where
  /-- A list joined the queue. -/
  | enqueued (list : DisplayList) (head : Bool)
  /-- The front list is about to run. -/
  | starting (list : ListId) (pc stall : Address)
  /-- A list was dropped because its next command lies outside memory. -/
  | unmappedStart (list : ListId) (pc : Address)
  /-- A list reached its stall address. -/
  | stalled (list : ListId)
  /-- A list was dropped because a command could not be read. -/
  | unreadable (list : ListId) (pc : Address) (error : Memory.Error)
  /-- A command was read. -/
  | fetched (list : ListId) (pc : Address) (word : Word)
  /-- A jump led outside memory and was skipped. -/
  | jumpSkipped (list : ListId) (target : Address) (operand : UInt32)
  /-- A call led outside memory and was skipped. -/
  | callSkipped (list : ListId) (target : Address) (operand : UInt32)
  /-- A call found the stack full and was skipped. -/
  | stackFull (list : ListId)
  /-- A return found the stack empty and was skipped. -/
  | stackEmpty (list : ListId)
  /-- A list was dropped because a return led outside memory. -/
  | returnLost (list : ListId) (target : Address)
  /-- A SIGNAL was carried out. -/
  | signalled (list : ListId) (behavior : UInt8) (signal endData : UInt16)
  /-- An END stood behind neither a SIGNAL nor a FINISH. -/
  | bareEnd (list : ListId) (previous : UInt32)
  /-- An interrupt has to wait until the one being served is done. -/
  | deferred (list : ListId) (token : UInt32)
  /-- Taking a list out of the queue has no effect. -/
  | dequeueIgnored (list : ListId)
  /-- Resuming the queue has no effect. -/
  | continueIgnored
  /-- Interrupting the queue has no effect. -/
  | breakIgnored (mode : UInt32)
  /-- Waiting for the queue does not wait. -/
  | drawWaitIgnored
  /-- Waiting for a list does not wait. -/
  | listWaitIgnored (list : ListId)
  /-- A restored current list is not among the restored lists. -/
  | currentLost (list : ListId)
  /-- A saved state was restored; the list to go on with is known unless the queue is empty. -/
  | restored (queued : Nat) (list : Option ListId)
  /-- A stall address is about to move. -/
  | advancing (list : ListId) (stall : Address)
deriving DecidableEq, Repr

/-- A notice in words: its severity, its message and its named details in order. -/
structure Notice.Entry where
  severity : Severity
  message : String
  fields : List (String × String)
deriving DecidableEq, Repr

namespace Notice

def listField (list : ListId)
    : String × String :=
  ("list_id", toString list.toNat)

/-- A detail that is an address, in eight digits. -/
def addressField (name : String) (address : Address)
    : String × String :=
  (name, Text.hex 8 address.toNat)

/-- A detail that is an operand, in six digits. -/
def operandField (name : String) (operand : UInt32)
    : String × String :=
  (name, Text.hex 6 operand.toNat)

/-- The details that a carried out SIGNAL ends with. -/
def signalFields (signal endData : UInt16)
    : List (String × String) :=
  [("signal", toString signal.toNat), ("end_data", toString endData.toNat)]

/-- The wording of a carried out SIGNAL. Only one that asks for no waiting is served in full. -/
def signalEntry (list : ListId) (behavior : UInt8) (signal endData : UInt16)
    : Entry :=
  match SignalBehavior.ofCode? behavior with
  | some .continue =>
      ⟨.info, "GE signal without wait", listField list :: signalFields signal endData⟩
  | some known =>
      ⟨.warn, "GE signal behaviour not implemented",
        listField list :: ("other", known.name) :: signalFields signal endData⟩
  | none =>
      ⟨.warn, "unknown GE signal behaviour",
        listField list :: ("behavior", toString behavior.toNat) :: signalFields signal endData⟩

def entry
    : Notice → Entry
  | enqueued list head =>
      ⟨.debug, "enqueue display list",
        [listField list.id, addressField "pc" list.start, addressField "stall" list.stall,
          ("sub_intr_base", toString list.channel.toInt), ("head", toString head)]⟩
  | starting list pc stall =>
      ⟨.debug, "starting display list execution",
        [listField list, addressField "pc" pc, addressField "stall" stall]⟩
  | unmappedStart list pc =>
      ⟨.error, "display list PC is invalid", [listField list, addressField "pc" pc]⟩
  | stalled list => ⟨.trace, "display list stalled", [listField list]⟩
  | unreadable list pc error =>
      ⟨.error, "failed to fetch GE command",
        [listField list, addressField "pc" pc, ("err", error.message)]⟩
  | fetched list pc word =>
      ⟨.trace, "GE command",
        [listField list, addressField "pc" pc, addressField "word" word,
          ("op", "\"" ++ (Opcode.name? word.opcode).getD "?" ++ "\"")]⟩
  | jumpSkipped list target operand =>
      ⟨.error, "JUMP to invalid address, ignoring",
        [listField list, addressField "target" target, operandField "data" operand]⟩
  | callSkipped list target operand =>
      ⟨.error, "CALL to invalid address, ignoring",
        [listField list, addressField "target" target, operandField "data" operand]⟩
  | stackFull list => ⟨.error, "CALL with a full return stack, ignoring", [listField list]⟩
  | stackEmpty list => ⟨.error, "RET with an empty return stack, ignoring", [listField list]⟩
  | returnLost list target =>
      ⟨.error, "RET to invalid address, aborting list",
        [listField list, addressField "target" target]⟩
  | signalled list behavior signal endData => signalEntry list behavior signal endData
  | bareEnd list previous =>
      ⟨.debug, "END without SIGNAL or FINISH",
        [listField list, operandField "prev" previous]⟩
  | deferred list token =>
      ⟨.debug, "deferring GE interrupt until the current one is serviced",
        [listField list, ("token", toString token.toNat)]⟩
  | dequeueIgnored list => ⟨.warn, "dequeue_list is not implemented", [listField list]⟩
  | continueIgnored => ⟨.warn, "continue_list is not implemented", []⟩
  | breakIgnored mode =>
      ⟨.warn, "break_list is not implemented", [("mode", toString mode.toNat)]⟩
  | drawWaitIgnored =>
      ⟨.warn, "draw_sync wait mode is not implemented, reporting completion", []⟩
  | listWaitIgnored list =>
      ⟨.warn, "list_sync wait mode is not implemented, reporting completion",
        [listField list]⟩
  | currentLost list =>
      ⟨.debug, "current display list is not in the restored queue", [listField list]⟩
  | restored queued list =>
      ⟨.info, "restored engine state",
        ("queued", toString queued) :: (list.map listField).toList⟩
  | advancing list stall =>
      ⟨.info, "advancing stall", [listField list, addressField "stall" stall]⟩

end Notice

end GraphicsEngine
