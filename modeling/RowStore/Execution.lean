import RowStore.Cursor
import RowStore.Stream.Sink

/-! # Executing statements

Executing a statement changes the table, reports events and produces text. How
the text is delivered is decided elsewhere, so it has no say in what happens to
the table.
-/

namespace RowStore

/-- What a statement does to a table. -/
structure Execution where
  table : Table
  events : List Event
  /-- The lines to show, each with its newline. -/
  text : List String
  outcome : Except Fault Unit

namespace Statement

/-- Executes a statement. Of the two, only a listing has text and only an
insertion changes the table. -/
def execute (table : Table) : Statement → Execution
  | select =>
    match table.rows with
    | .error breach => { table, events := [], text := [], outcome := .error (.breached breach) }
    | .ok rows =>
      { table, events := [], text := rows.map fun row => row.display ++ "\n", outcome := .ok () }
  | insert row =>
    let insertion := table.insert row
    { table := insertion.table
      events := insertion.events
      text := []
      outcome := insertion.outcome }

end Statement

/-- Delivers the text of an execution. A failure of the sink takes the place of
the outcome. -/
def Execution.deliver {σ : Type} [Sink σ] (execution : Execution) (sink : σ) :
    σ × Except Fault Unit :=
  match Sink.writeAll sink execution.text with
  | (sink, .error message) => (sink, .error (.stream message))
  | (sink, .ok ()) => (sink, execution.outcome)

end RowStore
