import RowStore.Response
import RowStore.Stream.Source

/-! # Sessions

A session works on a table, a source and a sink. It goes round in cycles: it
asks for a line, reads it, answers it and delivers the answer, until the exit
command, the end of input or a fault. Main statement: a cycle that does not end
the session takes at least one byte from the source, so a session comes to an
end.
-/

namespace RowStore

open Text

/-- A session in progress. -/
structure Session (σ : Type) where
  table : Table
  source : Source
  sink : σ
  /-- Everything that was reported so far. -/
  events : Array Event := #[]

namespace Session

/-- The text that asks for a line. -/
def prompt : String := "db > "

variable {σ : Type} [Sink σ]

/-- Shows the prompt, and makes sure that it is seen before a line is read. -/
def ask (sink : σ) : σ × Except String Unit :=
  match Sink.write sink (Utf8.encode prompt) with
  | (sink, .error message) => (sink, .error message)
  | (sink, .ok ()) => Sink.flush sink

/-- Answers a line, or the end of input. The answer that ends a session is
followed by a flush, unless it could not be delivered. The outcome is there if
the session has ended. -/
def answer (session : Session σ) (line : Option String) :
    Session σ × Option (Except Fault Unit) :=
  let { table, source, sink, events } := session
  let turn := (table.respond line).deliver sink
  let session (sink : σ) : Session σ :=
    { table := turn.table, source, sink, events := events ++ turn.events }
  match turn.outcome with
  | .error fault => (session turn.sink, some (.error fault))
  | .ok .proceed => (session turn.sink, none)
  | .ok .exit =>
    match Sink.flush turn.sink with
    | (sink, .error message) => (session sink, some (.error (.stream message)))
    | (sink, .ok ()) => (session sink, some (.ok ()))

/-- Goes through one cycle. The outcome is there if the session has ended. -/
def cycle (session : Session σ) : Session σ × Option (Except Fault Unit) :=
  let { table, source, sink, events } := session
  match ask sink with
  | (sink, .error message) =>
    ({ table, source, sink, events }, some (.error (.stream message)))
  | (sink, .ok ()) =>
    match source.readLine with
    | (.failed message, source) =>
      ({ table, source, sink, events }, some (.error (.stream message)))
    | (.ended, source) => answer { table, source, sink, events } none
    | (.line text, source) => answer { table, source, sink, events } (some (Blank.trim text))

/-! ## Progress -/

@[simp] theorem source_answer (session : Session σ) (line : Option String) :
    (session.answer line).1.source = session.source := by
  simp only [answer]
  split
  · rfl
  · rfl
  · split <;> rfl

/-- The end of input ends a session. -/
theorem answer_none_isSome (session : Session σ) : (session.answer none).2.isSome = true := by
  simp only [answer, Table.respond, Response.ofEnd, Response.deliver, Sink.writeAll]
  split <;> rfl

/-- A cycle that does not end the session takes at least one byte. -/
theorem pending_lt_of_cycle {session next : Session σ} (h : session.cycle = (next, none)) :
    next.source.pending.length < session.source.pending.length := by
  simp only [cycle] at h
  split at h
  next => cases h
  next =>
    split at h
    next => cases h
    next rest hreading =>
      have hsome := answer_none_isSome (σ := σ)
      have := congrArg (·.2.isSome) h
      simp [hsome] at this
    next text rest hreading =>
      rw [← congrArg (·.1.source) h, source_answer]
      exact Source.pending_lt_of_line hreading

/-- Goes on to the end of a session. -/
def run (session : Session σ) : Session σ × Except Fault Unit :=
  match _hcycle : session.cycle with
  | (next, none) => run next
  | (last, some outcome) => (last, outcome)
termination_by session.source.pending.length
decreasing_by exact pending_lt_of_cycle _hcycle

theorem run_of_cycle_none {session next : Session σ} (h : session.cycle = (next, none)) :
    session.run = next.run := by
  rw [run]
  split
  next hcycle => rw [h] at hcycle; cases hcycle; rfl
  next hcycle => rw [h] at hcycle; cases hcycle

theorem run_of_cycle_some {session last : Session σ} {outcome : Except Fault Unit}
    (h : session.cycle = (last, some outcome)) : session.run = (last, outcome) := by
  rw [run]
  split
  next hcycle => rw [h] at hcycle; cases hcycle
  next hcycle => rw [h] at hcycle; cases hcycle; rfl

end Session

end RowStore
