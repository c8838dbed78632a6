import GraphicsEngine.Session.Run

/-! The command line program: reads the files that a session names, runs it, and prints its
summary or what went wrong.
-/

namespace GraphicsEngine.Program

open GraphicsEngine.Session

/-- The system's wording for a failed file access. -/
def reason
    : IO.Error → String
  | .noFileOrDirectory .. => "No such file or directory (os error 2)"
  | .permissionDenied .. => "Permission denied (os error 13)"
  | .inappropriateType .. => "Is a directory (os error 21)"
  | error => toString error

/-- The contents of a file, or why it cannot be read. -/
def readFile (path : String)
    : IO (Except String Bytes) := do
  try
    let bytes ← IO.FS.readBinFile path
    return .ok bytes.toList
  catch error =>
    return .error (reason error)

/-- The files that a session reads, and the promise that the one it writes can be created. -/
def gatherFiles (arguments : Arguments)
    : IO Files := do
  let image ← readFile arguments.image
  let state ← match arguments.loadState with
    | some path => readFile path
    | none => pure (.error "")
  return {
    read := fun path => if path = arguments.image then image else state
    create := fun _ => .ok () }

def severityOf
    : (verbosity : Nat) → Severity
  | 0 => .warn
  | 1 => .debug
  | _ => .trace

def printLog (verbosity : Nat) (trace : Trace)
    : IO Unit := do
  for entry in trace.log (severityOf verbosity) do
    let fields := entry.fields.map fun (name, text) => " " ++ name ++ "=" ++ text
    IO.eprintln (entry.severity.name ++ " " ++ entry.message ++ String.join fields)

/-- Prints what went wrong and gives the exit status for it. -/
def fail (failure : Failure)
    : IO UInt32 := do
  IO.eprintln ("Error: " ++ failure.message)
  return 1

/-- Writes the saved state, if there is one, and prints the summary. -/
def finish (report : Report) (microseconds : Nat)
    : IO UInt32 := do
  if let some (path, bytes) := report.saved then
    try
      IO.FS.writeBinFile path (ByteArray.mk bytes.toArray)
    catch error =>
      return ← fail (.stateUncreatable path (reason error))
  IO.println (report.summary.render microseconds)
  return 0

/-- Runs a session with the given arguments and gives the exit status. -/
def runSession (arguments : Arguments)
    : IO UInt32 := do
  let files ← gatherFiles arguments
  let begun ← IO.monoNanosNow
  let surroundings : Surroundings :=
    { files, clock := fun _ => 0, fuel := 0x1000000000000000 }
  match run arguments surroundings with
  | none =>
      IO.eprintln "Error: the display list does not end"
      return 1
  | some result =>
      printLog arguments.verbosity result.trace
      let ended ← IO.monoNanosNow
      match result.value with
      | .error failure => fail failure
      | .ok report => finish report ((ended - begun) / 1000)

end GraphicsEngine.Program

/-- Runs the session that the command line describes. -/
def main (line : List String)
    : IO UInt32 := do
  match GraphicsEngine.Session.Arguments.read line with
  | .ok arguments => GraphicsEngine.Program.runSession arguments
  | .error .helpAsked =>
      IO.println GraphicsEngine.Session.UsageError.helpAsked.message
      return 0
  | .error error =>
      IO.eprintln ("error: " ++ error.message)
      return 2
