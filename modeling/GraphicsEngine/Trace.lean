import GraphicsEngine.Notice

/-! Traces: everything that a run of the engine lets the outside see, in the order in which it
happened.
-/

namespace GraphicsEngine

/-- What the renderer is told. Transfers of control have been made by the time it hears of them. -/
inductive Event where
  /-- A command for the renderer, with the bits that changed since the last one of its opcode. -/
  | execute (opcode : Opcode) (operand difference : UInt32)
  | jump (target : Address)
  | call (target returnAddress : Address)
  | ret (target : Address)
  /-- An END carried out a SIGNAL. -/
  | signal (behavior : UInt8) (signal endData : UInt16)
  /-- An END carried out a FINISH. -/
  | finish (token : UInt16)
  /-- The engine went back to its first state. -/
  | reset
deriving DecidableEq, Repr

/-- One thing that happened. -/
inductive Occurrence where
  /-- A word was read from memory as a command. -/
  | fetched (pc : Address) (word : Word)
  | event (event : Event)
  /-- A list raised an interrupt, whether it was delivered at once or has to wait. -/
  | raised (interrupt : Interrupt)
  /-- An interrupt reached its receiver. -/
  | delivered (interrupt : Interrupt)
  | notice (notice : Notice)
deriving DecidableEq, Repr

namespace Occurrence

def fetch?
    : Occurrence → Option (Address × Word)
  | fetched pc word => some (pc, word)
  | _ => none

def event?
    : Occurrence → Option Event
  | event told => some told
  | _ => none

def raised?
    : Occurrence → Option Interrupt
  | raised interrupt => some interrupt
  | _ => none

def delivered?
    : Occurrence → Option Interrupt
  | delivered interrupt => some interrupt
  | _ => none

def notice?
    : Occurrence → Option Notice
  | notice given => some given
  | _ => none

end Occurrence

/-- What happened, first things first. -/
abbrev Trace := Array Occurrence

namespace Trace

def fetches (trace : Trace)
    : List (Address × Word) :=
  (trace.filterMap Occurrence.fetch?).toList

def words (trace : Trace)
    : List Word :=
  trace.fetches.map Prod.snd

def events (trace : Trace)
    : List Event :=
  (trace.filterMap Occurrence.event?).toList

def raised (trace : Trace)
    : List Interrupt :=
  (trace.filterMap Occurrence.raised?).toList

def delivered (trace : Trace)
    : List Interrupt :=
  (trace.filterMap Occurrence.delivered?).toList

/-- The wording of the notices that a reader of one severity is shown. -/
def log (trace : Trace) (asked : Severity)
    : List Notice.Entry :=
  ((trace.filterMap Occurrence.notice?).toList.map Notice.entry).filter
    fun entry => asked.shows entry.severity

@[simp] theorem fetches_append (earlier later : Trace)
    : fetches (earlier ++ later) = earlier.fetches ++ later.fetches := by
  simp [fetches]

@[simp] theorem words_append (earlier later : Trace)
    : words (earlier ++ later) = earlier.words ++ later.words := by
  simp [words]

@[simp] theorem events_append (earlier later : Trace)
    : events (earlier ++ later) = earlier.events ++ later.events := by
  simp [events]

@[simp] theorem raised_append (earlier later : Trace)
    : raised (earlier ++ later) = earlier.raised ++ later.raised := by
  simp [raised]

@[simp] theorem delivered_append (earlier later : Trace)
    : delivered (earlier ++ later) = earlier.delivered ++ later.delivered := by
  simp [delivered]

end Trace

end GraphicsEngine
