import RowStore.Statement

/-! # Events

An event is something that the store reports about its work. Each has a
severity and belongs to a part of the program; a log shows the events up to a
chosen severity. Events never influence an answer.
-/

namespace RowStore

open Text

/-- The severities, the most severe first. -/
inductive Severity where
  | error
  | warn
  | info
  | debug
  | trace
deriving DecidableEq

namespace Severity

/-- How far down the list a severity is. -/
def rank : Severity → Nat
  | error => 1
  | warn => 2
  | info => 3
  | debug => 4
  | trace => 5

/-- The name in capitals. -/
def name : Severity → String
  | error => "ERROR"
  | warn => "WARN"
  | info => "INFO"
  | debug => "DEBUG"
  | trace => "TRACE"

/-- The name, right-aligned to the length of the longest one. -/
def aligned : Severity → String
  | error => "ERROR"
  | warn => " WARN"
  | info => " INFO"
  | debug => "DEBUG"
  | trace => "TRACE"

end Severity

/-- Something that happened. -/
inductive Event where
  /-- A line was parsed. -/
  | prepared (statement : Statement)
  /-- A page was taken into use. -/
  | pageAllocated (page : Nat)
  /-- A row was turned down because the table holds `rows` rows, its maximum. -/
  | insertRefused (rows : Nat)
  /-- A line was answered by the reason why it failed. -/
  | lineRejected (line : String) (reason : Rejection)
  /-- The exit command was given with `rows` rows in the table. -/
  | exitRequested (rows : Nat)
  /-- There are no more lines. -/
  | inputEnded
  /-- The session ended by a fault. -/
  | aborted (fault : Fault)
deriving DecidableEq

namespace Event

/-- How severe an event is. -/
def severity : Event → Severity
  | prepared _ => .trace
  | pageAllocated _ => .debug
  | insertRefused _ => .debug
  | lineRejected _ _ => .debug
  | exitRequested _ => .debug
  | inputEnded => .debug
  | aborted _ => .error

/-- The part of the program that an event belongs to. -/
def target : Event → String
  | prepared _ => "db::statement"
  | pageAllocated _ => "db::table"
  | insertRefused _ => "db::table"
  | lineRejected _ _ => "db::repl"
  | exitRequested _ => "db::repl"
  | inputEnded => "db::repl"
  | aborted _ => "db"

/-- What happened, without the particulars. -/
def message : Event → String
  | prepared _ => "prepared"
  | pageAllocated _ => "allocating page"
  | insertRefused _ => "insert rejected, table full"
  | lineRejected _ _ => "statement failed"
  | exitRequested _ => "exit requested"
  | inputEnded => "end of input"
  | aborted _ => "repl aborted"

/-- A particular of an event. A text that came from outside is marked, so that
a log can quote it. -/
inductive Value where
  | plain (text : String)
  | foreign (text : String)

/-- The value as it is. -/
def Value.text : Value → String
  | plain text => text
  | foreign text => text

/-- The value as a log line shows it. -/
def Value.display : Value → String
  | plain text => text
  | foreign text => Quoted.encode text

/-- The particulars of an event by name. -/
def fields : Event → List (String × Value)
  | prepared statement => [("statement", .plain statement.display)]
  | pageAllocated page => [("page_id", .plain (Nat.repr page))]
  | insertRefused rows => [("rows", .plain (Nat.repr rows))]
  | lineRejected line reason => [("err", .plain reason.message), ("line", .foreign line)]
  | exitRequested rows => [("rows", .plain (Nat.repr rows))]
  | inputEnded => []
  | aborted fault => [("err", .plain fault.message)]

/-- The line of a log for an event. -/
def logLine (event : Event) : String :=
  event.severity.aligned ++ " " ++ event.target ++ ": " ++ event.message ++
    String.join (event.fields.map fun field => " " ++ field.1 ++ "=" ++ field.2.display)

end Event

/-- What a log shows: nothing, or the events down to a severity. -/
abbrev Verbosity := Option Severity

namespace Verbosity

/-- Whether an event is shown. -/
def shows (verbosity : Verbosity) (event : Event) : Bool :=
  match verbosity with
  | none => false
  | some least => event.severity.rank ≤ least.rank

/-- The events that are shown, in the order in which they happened. -/
def filter (verbosity : Verbosity) (events : List Event) : List Event :=
  events.filter verbosity.shows

end Verbosity

end RowStore
