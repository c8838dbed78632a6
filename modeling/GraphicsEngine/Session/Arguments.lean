import GraphicsEngine.Memory
import GraphicsEngine.Session.AddressText

/-! The command line: options with and without a value in any order, and one image. -/

namespace GraphicsEngine.Session

/-- What a session is asked to do. -/
structure Arguments where
  /-- The file with the memory image. -/
  image : String
  /-- Where the image is put. -/
  loadAddress : UInt32 := Memory.ramBase
  /-- Where the display list starts; the start of the image if not given. -/
  list : Option UInt32 := none
  /-- Where the display list waits; the end of the image if not given. -/
  stall : Option UInt32 := none
  /-- The addresses that the stall address moves to, in order. -/
  advances : List UInt32 := []
  /-- The interrupt channel of the list. -/
  channel : Int32 := -1
  /-- The list joins the queue in front. -/
  head : Bool := false
  /-- The size of main memory. -/
  ramSize : UInt32 := Memory.defaultRamSize
  /-- The file with a saved state to go on from, instead of a new list. -/
  loadState : Option String := none
  /-- The file to save the state to in the end. -/
  saveState : Option String := none
  /-- Lists may not raise interrupts. -/
  noInterrupts : Bool := false
  /-- A notice is given for every command. -/
  traceCommands : Bool := false
  /-- How many more kinds of notices are shown. -/
  verbosity : Nat := 0
deriving DecidableEq, Repr

/-- An option that takes a value. -/
inductive Setting where
  | loadAddress
  | list
  | stall
  | advance
  | channel
  | ramSize
  | loadState
  | saveState
deriving DecidableEq, Repr

/-- An option that stands alone. -/
inductive Switch where
  | head
  | noInterrupts
  | traceCommands
  | verbose
  | help
deriving DecidableEq, Repr

/-- Why a command line was not understood. -/
inductive UsageError where
  /-- Help was asked for. -/
  | helpAsked
  /-- There is no such option, or no place for another argument. -/
  | unknownArgument (argument : String)
  /-- A value is missing or empty. -/
  | missingValue (argument : String)
  /-- A value cannot be read. -/
  | invalidValue (argument value : String)
  /-- An option that may be given once is given again. -/
  | repeated (argument : String)
  /-- An option that stands alone was given a value. -/
  | unwantedValue (argument value : String)
  | missingImage
deriving DecidableEq, Repr

namespace Setting

/-- The name of an option on the command line, without its dashes. -/
def name
    : Setting → String
  | loadAddress => "load-addr"
  | list => "list"
  | stall => "stall"
  | advance => "advance"
  | channel => "sub-intr"
  | ramSize => "ram-size-bytes"
  | loadState => "load-state"
  | saveState => "save-state"

def all : List Setting :=
  [loadAddress, list, stall, advance, channel, ramSize, loadState, saveState]

/-- The value may start with a dash, and may look like any other option. -/
def takesDashes
    : Setting → Bool
  | channel => true
  | _ => false

/-- The option may be given more than once. -/
def mayRepeat
    : Setting → Bool
  | advance => true
  | _ => false

end Setting

namespace Switch

/-- The name of an option on the command line, without its dashes. -/
def name
    : Switch → String
  | head => "head"
  | noInterrupts => "no-interrupts"
  | traceCommands => "trace-commands"
  | verbose => "verbose"
  | help => "help"

def all : List Switch :=
  [head, noInterrupts, traceCommands, verbose, help]

/-- The option that one letter behind a single dash stands for. -/
def ofLetter?
    : Char → Option Switch
  | 'v' => some verbose
  | 'h' => some help
  | _ => none

/-- The option may be given more than once. -/
def mayRepeat
    : Switch → Bool
  | verbose => true
  | _ => false

end Switch

/-- An argument that was found but not looked into yet: that is done when the next one turns up, so
that a fault of the next one may count first.
-/
inductive Waiting where
  | image (path : String)
  /-- An option whose value may still come. -/
  | setting (setting : Setting) (value : Option String)
deriving DecidableEq, Repr

/-- The command line as far as it was understood. -/
structure Scan where
  image : Option String := none
  /-- The arguments so far, with an image that does not count. -/
  arguments : Arguments := { image := "" }
  /-- The options given so far. -/
  settings : List Setting := []
  switches : List Switch := []
  waiting : Option Waiting := none
  /-- A lone double dash was found: no more options follow. -/
  closed : Bool := false
  /-- An image was found, whether it was looked into or not. -/
  imageFound : Bool := false

namespace Arguments

def address (setting : Setting) (value : String)
    : Except UsageError UInt32 :=
  match readAddress value with
  | .ok address => .ok address
  | .error _ => .error (.invalidValue setting.name value)

/-- Reads a file name given to an option, which may not be empty. -/
def path (setting : Setting) (value : String)
    : Except UsageError String :=
  if value = "" then .error (.missingValue setting.name) else .ok value

/-- The arguments with the value of an option. -/
def set (arguments : Arguments) (setting : Setting) (value : String)
    : Except UsageError Arguments :=
  match setting with
  | .loadAddress => do return { arguments with loadAddress := ← address setting value }
  | .list => do return { arguments with list := some (← address setting value) }
  | .stall => do return { arguments with stall := some (← address setting value) }
  | .advance => do
      return { arguments with advances := arguments.advances ++ [← address setting value] }
  | .channel =>
      match Text.readInteger? 0x80000000 0x80000000 value.toList with
      | some channel => .ok { arguments with channel := Int32.ofInt channel }
      | none => .error (.invalidValue setting.name value)
  | .ramSize =>
      match Text.readInteger? 0 0x100000000 value.toList with
      | some size => .ok { arguments with ramSize := UInt32.ofNat size.toNat }
      | none => .error (.invalidValue setting.name value)
  | .loadState => do return { arguments with loadState := some (← path setting value) }
  | .saveState => do return { arguments with saveState := some (← path setting value) }

/-- The arguments with an option that stands alone. -/
def turnOn (arguments : Arguments)
    : Switch → Arguments
  | .head => { arguments with head := true }
  | .noInterrupts => { arguments with noInterrupts := true }
  | .traceCommands => { arguments with traceCommands := true }
  | .verbose => { arguments with verbosity := arguments.verbosity + 1 }
  | .help => arguments

end Arguments

namespace Scan

/-- Looks into an option that takes a value. -/
def takeSetting (scan : Scan) (setting : Setting) (value : Option String)
    : Except UsageError Scan :=
  match value with
  | none => .error (.missingValue setting.name)
  | some value =>
      if !setting.mayRepeat && scan.settings.contains setting then
        .error (.repeated setting.name)
      else do
        let arguments ← scan.arguments.set setting value
        return { scan with arguments, settings := setting :: scan.settings }

/-- Looks into the argument that waits, if there is one. -/
def resolve (scan : Scan)
    : Except UsageError Scan :=
  match scan.waiting with
  | none => .ok scan
  | some (.image path) =>
      if path = "" then .error (.missingValue "image")
      else .ok { scan with image := some path, waiting := none }
  | some (.setting setting value) => takeSetting { scan with waiting := none } setting value

/-- Looks into an option that stands alone, after the argument that waits. -/
def takeSwitch (scan : Scan) (switch : Switch)
    : Except UsageError Scan := do
  let scan ← scan.resolve
  if switch = .help then
    throw .helpAsked
  else if !switch.mayRepeat && scan.switches.contains switch then
    throw (.repeated switch.name)
  else
    return { scan with
      arguments := scan.arguments.turnOn switch
      switches := switch :: scan.switches }

/-- Looks into letters behind a single dash, one by one. -/
def takeLetters (argument : String)
    : List Char → Scan → Except UsageError Scan
  | [], scan => .ok scan
  | letter :: rest, scan =>
      match Switch.ofLetter? letter with
      | none => .error (.unknownArgument argument)
      | some switch => do takeLetters argument rest (← scan.takeSwitch switch)

/-- Splits a text at its first equals sign, if it has one. -/
def splitValue (text : List Char)
    : String × Option String :=
  match text.dropWhile (· ≠ '=') with
  | [] => (String.ofList text, none)
  | _ :: value => (String.ofList (text.takeWhile (· ≠ '=')), some (String.ofList value))

/-- Looks into what stands behind a double dash. A value behind an equals sign is looked into at
once; one that may still come is waited for.
-/
def takeLong (scan : Scan) (argument : String) (text : List Char)
    : Except UsageError Scan :=
  let (name, value) := splitValue text
  match Setting.all.find? (·.name = name), Switch.all.find? (·.name = name), value with
  | some setting, _, some value => do (← scan.resolve).takeSetting setting (some value)
  | some setting, _, none => do
      return { ← scan.resolve with waiting := some (.setting setting none) }
  | none, some switch, none => scan.takeSwitch switch
  | none, some switch, some value => .error (.unwantedValue switch.name value)
  | none, none, _ => .error (.unknownArgument argument)

/-- Takes an argument that is no option: the value of an option that waits for one, the image, or
one too many.
-/
def takePlain (scan : Scan) (argument : String)
    : Except UsageError Scan :=
  match scan.closed, scan.waiting with
  | false, some (.setting setting none) =>
      .ok { scan with waiting := some (.setting setting (some argument)) }
  | _, _ =>
      if scan.imageFound then
        .error (.unknownArgument argument)
      else do
        return { ← scan.resolve with waiting := some (.image argument), imageFound := true }

/-- The option that waits takes whatever comes next as its value. -/
def takesAnything (scan : Scan)
    : Bool :=
  match scan.waiting with
  | some (.setting setting none) => setting.takesDashes
  | _ => false

def take (scan : Scan) (argument : String)
    : Except UsageError Scan :=
  if scan.closed || scan.takesAnything then
    scan.takePlain argument
  else
    match argument.toList with
    | ['-', '-'] => .ok { scan with closed := true }
    | '-' :: '-' :: text => scan.takeLong argument text
    | ['-'] => scan.takePlain argument
    | '-' :: letters => takeLetters argument letters scan
    | _ => scan.takePlain argument

/-- The arguments at the end of the command line. -/
def finish (scan : Scan)
    : Except UsageError Arguments := do
  let scan ← scan.resolve
  match scan.image with
  | some image => return { scan.arguments with image }
  | none => throw .missingImage

end Scan

/-- Reads a command line, without the name of the program. -/
def Arguments.read (line : List String)
    : Except UsageError Arguments := do
  let scan ← line.foldlM Scan.take {}
  scan.finish

/-- The wording of a command line that was not understood. -/
def UsageError.message
    : UsageError → String
  | helpAsked =>
      "Usage: [OPTIONS] <IMAGE>\n\n"
        ++ "Runs a display list from a raw memory image and prints a summary.\n\n"
        ++ "Options:\n"
        ++ "  --load-addr <ADDR>        address the image is loaded at\n"
        ++ "  --list <ADDR>             address of the display list\n"
        ++ "  --stall <ADDR>            first stall address\n"
        ++ "  --advance <ADDR>          move the stall address; may be repeated\n"
        ++ "  --sub-intr <N>            interrupt channel of the list\n"
        ++ "  --head                    enqueue in front\n"
        ++ "  --ram-size-bytes <BYTES>  size of main memory\n"
        ++ "  --load-state <PATH>       resume from a saved state\n"
        ++ "  --save-state <PATH>       save the state at the end\n"
        ++ "  --no-interrupts           raise no interrupts\n"
        ++ "  --trace-commands          report every command\n"
        ++ "  -v, --verbose             report more\n"
        ++ "  -h, --help                print this help"
  | unknownArgument argument => "unexpected argument " ++ Text.quote argument
  | missingValue argument => "a value is required for " ++ Text.quote argument
  | invalidValue argument value =>
      "invalid value " ++ Text.quote value ++ " for " ++ Text.quote argument
  | repeated argument => Text.quote argument ++ " cannot be used multiple times"
  | unwantedValue argument value =>
      "unexpected value " ++ Text.quote value ++ " for " ++ Text.quote argument
  | missingImage => "the image is missing"

end GraphicsEngine.Session
