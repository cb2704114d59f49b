import RowStore.Execution

/-! # Responses

The response to a line is a function of the table and the line. A command
starts with a dot; every other line is a statement. The text of a response goes
to a sink, which receives it and has no say in it.
-/

namespace RowStore

/-- Whether a session goes on after a line. -/
inductive Next where
  | proceed
  | exit
deriving DecidableEq

/-- What a line leads to. -/
structure Response where
  table : Table
  events : List Event
  /-- The lines to show, each with its newline. -/
  text : List String
  outcome : Except Fault Next

/-- A response that has been delivered, as far as the sink took it. -/
structure Turn (σ : Type) where
  table : Table
  events : List Event
  sink : σ
  outcome : Except Fault Next

namespace Response

/-- The command that ends a session. -/
def exitCommand : String := ".exit"

/-- The line that confirms a statement. -/
def executed : String := "Executed.\n"

/-- Whether a line is a command. -/
def isCommand (line : String) : Bool :=
  line.toList.head? == some '.'

/-- The response to a line that is turned down after some events: the reason is
shown. -/
def reject (table : Table) (events : List Event) (line : String) (reason : Rejection) :
    Response where
  table
  events := events ++ [.lineRejected line reason]
  text := [reason.message ++ "\n"]
  outcome := .ok .proceed

/-- The response to a parsed line. A fault that a session survives is shown. -/
def ofStatement (table : Table) (line : String) (statement : Statement) : Response :=
  let execution := statement.execute table
  let events := .prepared statement :: execution.events
  match execution.outcome with
  | .ok () =>
    { table := execution.table
      events
      text := execution.text ++ [executed]
      outcome := .ok .proceed }
  | .error fault =>
    if h : fault.isRecoverable = true then
      reject execution.table events line (fault.reason h)
    else { table := execution.table, events, text := execution.text, outcome := .error fault }

/-- The response to a line, which has no blanks at its ends. -/
def ofLine (table : Table) (line : String) : Response :=
  if line = exitCommand then
    { table, events := [.exitRequested table.len], text := [], outcome := .ok .exit }
  else if isCommand line then reject table [] line (.unknownCommand line)
  else
    match Statement.parse line with
    | .error reason => reject table [] line reason
    | .ok statement => ofStatement table line statement

/-- The response to the end of input. -/
def ofEnd (table : Table) : Response :=
  { table, events := [.inputEnded], text := [], outcome := .ok .exit }

/-- Delivers the text of a response. A failure of the sink takes the place of
the outcome. -/
def deliver {σ : Type} [Sink σ] (response : Response) (sink : σ) : Turn σ :=
  let delivery := Sink.writeAll sink response.text
  { table := response.table
    events := response.events
    sink := delivery.1
    outcome :=
      match delivery.2 with
      | .error message => .error (.stream message)
      | .ok () => response.outcome }

end Response

/-- The response to a line, or to the end of input if there is none. -/
def Table.respond (table : Table) : Option String → Response
  | none => .ofEnd table
  | some line => .ofLine table line

end RowStore
