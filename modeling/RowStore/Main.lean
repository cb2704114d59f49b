import RowStore.CommandLine

/-! # The program

A session over the standard streams. Lines are read when they are asked for, so
that a person can talk to it; what is read, answered and logged is decided by
`Table.respond` and `CommandLine`.
-/

namespace RowStore.Program

open Text

/-- The environment variable that sets what is logged. -/
def settingVariable : String := "RUST_LOG"

/-- Writes log lines. A log that cannot be written is no reason to stop. -/
def log (lines : List String) : IO Unit := do
  let stderr ← IO.getStderr
  try
    for line in lines do
      stderr.putStr (line ++ "\n")
  catch _ => pure ()

/-- Reads chunks until they hold a line or the input ends. -/
partial def readChunks (chunks : Array (List UInt8)) : IO (List (List UInt8)) := do
  let chunk ← (← IO.getStdin).read 4096
  if chunk.isEmpty then
    return chunks.toList
  let chunks := chunks.push chunk.data.toList
  if chunk.data.contains Source.newline then
    return chunks.toList
  readChunks chunks

/-- Reads a line, given the chunks that are left from the line before. -/
def readLine (chunks : List (List UInt8)) : IO (Reading × Source) := do
  if (Source.takeLine #[] chunks).terminated then
    return Source.readLine { chunks }
  let chunks ← readChunks chunks.toArray
  return Source.readLine { chunks }

/-- Answers lines until the session ends. -/
partial def serve (verbosity : Verbosity) (table : Table) (chunks : List (List UInt8)) :
    IO (Except Fault Unit) := do
  let stdout ← IO.getStdout
  stdout.putStr Session.prompt
  stdout.flush
  let (reading, rest) ← readLine chunks
  match reading with
  | .failed message => return .error (.stream message)
  | .ended => respond stdout none rest
  | .line text => respond stdout (some (Blank.trim text)) rest
where
  respond (stdout : IO.FS.Stream) (line : Option String) (rest : Source) :
      IO (Except Fault Unit) := do
    let response := table.respond line
    log (CommandLine.logLines verbosity response.events)
    for text in response.text do
      stdout.putStr text
    match response.outcome with
    | .error fault => return .error fault
    | .ok .exit =>
      stdout.flush
      return .ok ()
    | .ok .proceed => serve verbosity response.table rest.chunks

/-- Serves a session and gives the exit code. -/
def runSession (verbosity : Verbosity) : IO UInt8 := do
  let outcome ←
    try serve verbosity Table.empty []
    catch failure => pure (.error (.stream (toString failure)))
  match outcome with
  | .ok () => return CommandLine.success
  | .error fault =>
    log (CommandLine.faultLines verbosity fault)
    return CommandLine.failure

end RowStore.Program

open RowStore in
/-- Does what the arguments ask for. -/
def main (arguments : List String) : IO UInt32 := do
  let setting ← IO.getEnv Program.settingVariable
  match Invocation.ofArguments arguments with
  | .serve detail => return (← Program.runSession (Verbosity.ofDetail setting detail)).toUInt32
  | invocation =>
    let result := CommandLine.perform setting { chunks := [] } invocation
    (← IO.getStdout).write ⟨result.output.toArray⟩
    Program.log result.log
    return result.code.toUInt32
