import RowStore.Session
import RowStore.Stream.Recorder

/-! # The command line

The program serves one session over its standard streams. Options say how much
of the work is logged; the log never touches the session. Options are read from
the left, and the first one that asks for something else, or that is unknown,
decides.
-/

namespace RowStore

open Text

/-- What the arguments ask for. -/
inductive Invocation where
  /-- A session, with the number of times that more detail was asked for. -/
  | serve (detail : Nat)
  | version
  | help
  /-- An argument that has no meaning. -/
  | unknown (argument : String)
deriving DecidableEq

namespace Invocation

/-- Reads the letters behind a single dash. -/
def ofLetters (argument : String) (detail : Nat) : List Char → Except Invocation Nat
  | [] => .ok detail
  | 'v' :: letters => ofLetters argument (detail + 1) letters
  | 'V' :: _ => .error version
  | 'h' :: _ => .error help
  | _ :: _ => .error (unknown argument)

/-- Reads an argument: either the level of detail after it, or the decision. -/
def ofArgument (argument : String) (detail : Nat) : Except Invocation Nat :=
  if argument = "--verbose" then .ok (detail + 1)
  else if argument = "--version" then .error version
  else if argument = "--help" then .error help
  else
    match argument.toList with
    | '-' :: letter :: letters =>
      if letter = '-' then .error (unknown argument)
      else ofLetters argument detail (letter :: letters)
    | _ => .error (unknown argument)

/-- Reads the arguments, after some that asked for a level of detail. No
arguments may follow a lone double dash. -/
def ofArgumentsFrom (detail : Nat) : List String → Invocation
  | [] => serve detail
  | argument :: arguments =>
    if argument = "--" then
      match arguments with
      | [] => serve detail
      | extra :: _ => unknown extra
    else
      match ofArgument argument detail with
      | .error decision => decision
      | .ok detail => ofArgumentsFrom detail arguments

/-- Reads the arguments. -/
def ofArguments (arguments : List String) : Invocation :=
  ofArgumentsFrom 0 arguments

end Invocation

namespace Verbosity

/-- The verbosity that a setting names, in letters of either case or as a
number from nothing to everything. An empty setting shows errors; one that
names no verbosity shows nothing. -/
def ofSetting (setting : String) : Verbosity :=
  let name := String.ofList (setting.toList.map Char.toLower)
  if name = "error" ∨ name = "1" ∨ name = "" then some .error
  else if name = "warn" ∨ name = "2" then some .warn
  else if name = "info" ∨ name = "3" then some .info
  else if name = "debug" ∨ name = "4" then some .debug
  else if name = "trace" ∨ name = "5" then some .trace
  else none

/-- The verbosity for a level of detail. Only if no detail is asked for does
the setting count, and without either nothing is shown. -/
def ofDetail (setting : Option String) : Nat → Verbosity
  | 0 => setting.bind ofSetting
  | 1 => some .info
  | 2 => some .debug
  | _ => some .trace

end Verbosity

namespace CommandLine

/-- The answer to a question for the version. -/
def versionText : String := "db 0.1.0\n"

/-- The lines about what the program does and which options it has. -/
def helpLines : List String :=
  ["A tiny single-table row store driven from standard input", "", "Usage: db [OPTIONS]", "",
    "Options:",
    "  -v, --verbose...  Log to stderr; repeat for more detail (-v info, -vv debug, -vvv trace)",
    "  -h, --help        Print help",
    "  -V, --version     Print version"]

/-- The answer to a question for help. -/
def helpText : String := String.join (helpLines.map (· ++ "\n"))

/-- The lines about an argument that has no meaning. -/
def usageLines (argument : String) : List String :=
  ["error: unexpected argument '" ++ argument ++ "' found", "", "Usage: db [OPTIONS]", "",
    "For more information, try '--help'."]

/-- The exit codes. -/
def success : UInt8 := 0

/-- A session that ended by a fault. -/
def failure : UInt8 := 1

/-- Arguments that have no meaning. -/
def misuse : UInt8 := 2

/-- The lines of a log. -/
def logLines (verbosity : Verbosity) (events : List Event) : List String :=
  (verbosity.filter events).map Event.logLine

/-- The last lines of a log, after a fault. -/
def faultLines (verbosity : Verbosity) (fault : Fault) : List String :=
  logLines verbosity [.aborted fault] ++ ["error: " ++ fault.message]

/-- Everything that the program leaves behind. -/
structure Result where
  code : UInt8
  output : List UInt8
  /-- The lines on the error stream. -/
  log : List String

/-- Serves a session on a new table. -/
def serve (verbosity : Verbosity) (source : Source) : Result :=
  let session : Session Recorder := { table := .empty, source, sink := {} }
  let (last, outcome) := session.run
  let output := last.sink.written.toList
  let log := logLines verbosity last.events.toList
  match outcome with
  | .ok () => { code := success, output, log }
  | .error fault => { code := failure, output, log := log ++ faultLines verbosity fault }

/-- Does what the arguments ask for, given the setting for the log and the
input. -/
def perform (setting : Option String) (source : Source) : Invocation → Result
  | .serve detail => serve (Verbosity.ofDetail setting detail) source
  | .version => { code := success, output := Utf8.encode versionText, log := [] }
  | .help => { code := success, output := Utf8.encode helpText, log := [] }
  | .unknown argument => { code := misuse, output := [], log := usageLines argument }

end CommandLine

end RowStore
