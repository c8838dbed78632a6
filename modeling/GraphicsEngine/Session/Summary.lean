import GraphicsEngine.Engine.Requests
import GraphicsEngine.Text.Document
import Std.Data.TreeMap.Basic

/-! The summary of a session: where its display list and its queue stand, and what was seen. -/

namespace GraphicsEngine.Session

/-- What a session reports in the end. -/
structure Summary where
  /-- The list that the session was about. -/
  list : Option ListId
  /-- The name of its progress, as long as it is in the queue. -/
  listStatus : Option String
  /-- The name of the progress of the whole queue, or why it is not known. -/
  drawStatus : String
  current : Option ListId
  queue : Queue
  interrupts : List Interrupt
  /-- How often each command was handed to the renderer, in order of name. -/
  forwarded : List (String × Nat)
  cycles : UInt64
  stats : Stats
deriving DecidableEq, Repr

/-- The name of a command for the renderer: its mnemonic or else its number. -/
def commandName (opcode : Opcode)
    : String :=
  (Opcode.name? opcode).getD (Text.hex 2 opcode.toNat)

/-- The opcode of a command that was handed to the renderer. -/
def forwardedOpcode?
    : Event → Option Opcode
  | .execute opcode _ _ => some opcode
  | _ => none

/-- How often each name occurs, in order of name. -/
def tally (names : List String)
    : List (String × Nat) :=
  let counts : Std.TreeMap String Nat :=
    names.foldl (fun counts name => counts.insert name (counts.getD name 0 + 1)) ∅
  counts.toList

namespace Summary

/-- The summary of an engine after all that a trace tells. -/
def collect (engine : Engine) (list : Option ListId) (trace : Trace)
    : Summary :=
  { list
    listStatus := list.bind fun id =>
      match engine.listSync id 1 with
      | .ok (status, _) => some status.name
      | .error _ => none
    drawStatus :=
      match engine.drawSync 1 with
      | .ok (status, _) => status.name
      | .error error => error.message
    current := engine.current
    queue := engine.queue
    interrupts := trace.delivered
    forwarded := tally ((trace.events.filterMap forwardedOpcode?).map commandName)
    cycles := engine.registers.cycles
    stats := engine.stats }

/-- The name of a state in lower case. -/
def stateName
    : ListState → String
  | .queued => "queued"
  | .running => "running"
  | .completed => "completed"
  | .paused => "paused"

def listDocument (list : DisplayList)
    : Text.Document :=
  .object [
    ("id", .number list.id.toNat),
    ("state", .plain (stateName list.state)),
    ("pc", .plain (Text.hex 8 list.pc.toNat)),
    ("stall", .plain (Text.hex 8 list.stall.toNat)),
    ("stack_depth", .number list.stack.length)]

def interruptDocument (interrupt : Interrupt)
    : Text.Document :=
  .object [
    ("list_id", .number interrupt.list.toNat),
    ("pc", .plain (Text.hex 8 interrupt.pc.toNat)),
    ("sub_intr_base", .number interrupt.channel.toInt),
    ("token", .number interrupt.token.toNat)]

/-- The counters, with the time that was spent. -/
def statsDocument (stats : Stats) (microseconds : Nat)
    : Text.Document :=
  .object [
    ("lists_started", .number stats.started),
    ("lists_completed", .number stats.completed),
    ("lists_aborted", .number stats.aborted),
    ("stalls", .number stats.stalls),
    ("commands_executed", .number stats.commands),
    ("interrupts_raised", .number stats.interrupts),
    ("total_cycles", .number stats.totalCycles.toNat),
    ("processing_time_us", .number microseconds)]

/-- The whole summary, with the time that was spent. -/
def document (summary : Summary) (microseconds : Nat)
    : Text.Document :=
  .object [
    ("list_id", .optional summary.list fun id => .number id.toNat),
    ("list_status", .optional summary.listStatus .plain),
    ("draw_status", .plain summary.drawStatus),
    ("current_list_id", .optional summary.current fun id => .number id.toNat),
    ("queue", .array (summary.queue.map listDocument)),
    ("interrupts", .array (summary.interrupts.map interruptDocument)),
    ("forwarded", .object (summary.forwarded.map fun (name, count) => (name, .number count))),
    ("cycles_executed", .number summary.cycles.toNat),
    ("stats", statsDocument summary.stats microseconds)]

/-- The text of a summary, with the time that was spent. -/
def render (summary : Summary) (microseconds : Nat)
    : String :=
  (summary.document microseconds).render

end Summary

end GraphicsEngine.Session
