import RowStore.Proofs.Session.Transcript

/-! # Reachable tables

A new table changes only by the lines that are answered, singly or in sessions,
and whatever the streams of these do. So a property of the new table that every
answer preserves holds throughout. This is how all tables in question are known
to hold the rows that were appended to them.
-/

namespace RowStore

open Text

namespace Table

/-- The table after some lines were answered, of which any may be the end of input. -/
def afterAll (table : Table) (lines : List (Option String)) : Table :=
  lines.foldl (fun table line => (table.respond line).table) table

theorem afterAll_append (table : Table) (first second : List (Option String)) :
    table.afterAll (first ++ second) = (table.afterAll first).afterAll second :=
  List.foldl_append

/-- What every answer preserves is preserved by any number of them. -/
theorem afterAll_of_respond {motive : Table → Prop}
    (hrespond : ∀ table line, motive table → motive (table.respond line).table) {table : Table}
    (h : motive table) (lines : List (Option String)) : motive (table.afterAll lines) := by
  induction lines generalizing table with
  | nil => exact h
  | cons line lines ih => exact ih (hrespond _ line h)

end Table

namespace Session

variable {σ : Type} [Sink σ]

@[simp] theorem table_answer (session : Session σ) (line : Option String) :
    (session.answer line).1.table = (session.table.respond line).table := by
  simp only [answer, Response.deliver]
  split
  · rfl
  · rfl
  · split <;> rfl

/-- The line that a cycle answers, or the end of input. There is none if the prompt is not taken or
if the reading fails. -/
def handed (session : Session σ) : Option (Option String) :=
  match ask session.sink with
  | (_, .error _) => none
  | (_, .ok ()) =>
    match session.source.readLine with
    | (.failed _, _) => none
    | (.ended, _) => some none
    | (.line text, _) => some (some (Blank.trim text))

/-- A cycle answers one line, or it fails before that. -/
theorem cycle_cases (session : Session σ) :
    (∃ rest sink message, session.handed = none ∧
      session.cycle = ({ session with source := rest, sink }, some (.error (.stream message)))) ∨
    ∃ rest sink line, session.handed = some line ∧
      session.cycle = answer { session with source := rest, sink } line := by
  match hask : ask session.sink with
  | (sink, .error message) =>
      refine Or.inl ⟨session.source, sink, message, ?_, cycle_of_ask_error hask⟩
      rw [handed, hask]
  | (sink, .ok ()) =>
      match hread : session.source.readLine with
      | (.failed message, rest) =>
          refine Or.inl ⟨rest, sink, message, ?_, cycle_of_failed hask hread⟩
          rw [handed, hask, hread]
      | (.ended, rest) =>
          refine Or.inr ⟨rest, sink, none, ?_, cycle_of_ended hask hread⟩
          rw [handed, hask, hread]
      | (.line text, rest) =>
          refine Or.inr ⟨rest, sink, some (Blank.trim text), ?_, cycle_of_line hask hread⟩
          rw [handed, hask, hread]

theorem table_cycle (session : Session σ) :
    session.cycle.1.table = session.table.afterAll session.handed.toList := by
  rcases session.cycle_cases with ⟨rest, sink, message, hhanded, hcycle⟩ |
    ⟨rest, sink, line, hhanded, hcycle⟩
  · rw [hcycle, hhanded]
    rfl
  · rw [hcycle, hhanded, table_answer]
    rfl

/-- Everything that a session answers, in order. -/
def heard (session : Session σ) : List (Option String) :=
  match _hcycle : session.cycle with
  | (next, none) => session.handed.toList ++ next.heard
  | (_, some _) => session.handed.toList
termination_by session.source.pending.length
decreasing_by exact pending_lt_of_cycle _hcycle

theorem heard_of_cycle_none {session next : Session σ} (h : session.cycle = (next, none)) :
    session.heard = session.handed.toList ++ next.heard := by
  rw [heard]
  split
  next hcycle => rw [h] at hcycle; cases hcycle; rfl
  next hcycle => rw [h] at hcycle; cases hcycle

theorem heard_of_cycle_some {session last : Session σ} {outcome : Except Fault Unit}
    (h : session.cycle = (last, some outcome)) : session.heard = session.handed.toList := by
  rw [heard]
  split
  next hcycle => rw [h] at hcycle; cases hcycle
  next hcycle => rfl

/-- A session changes its table by what it answers and by nothing else. -/
theorem table_run (session : Session σ) :
    session.run.1.table = session.table.afterAll session.heard := by
  have hcycle := session.table_cycle
  match hnext : session.cycle with
  | (next, none) =>
      rw [hnext] at hcycle
      rw [run_of_cycle_none hnext, heard_of_cycle_none hnext, Table.afterAll_append, ← hcycle]
      exact table_run next
  | (last, some outcome) =>
      rw [hnext] at hcycle
      rw [run_of_cycle_some hnext, heard_of_cycle_some hnext]
      exact hcycle
termination_by session.source.pending.length
decreasing_by exact pending_lt_of_cycle hnext

end Session

namespace Table

/-- The tables that answering lines leads to, one by one or in sessions, on sinks of any kind. -/
inductive Reachable : Table → Prop
  | empty : Reachable .empty
  | step {σ : Type} [Sink σ] {table : Table} (h : Reachable table) (line : Option String)
      (sink : σ) : Reachable ((table.respond line).deliver sink).table
  | run {σ : Type} [Sink σ] {session : Session σ} (h : Reachable session.table) :
      Reachable session.run.1.table

/-- What holds of a new table and is preserved by every answer holds of all reachable tables. -/
theorem Reachable.invariant {motive : Table → Prop} (hempty : motive .empty)
    (hrespond : ∀ table line, motive table → motive (table.respond line).table) {table : Table}
    (h : table.Reachable) : motive table := by
  induction h with
  | empty => exact hempty
  | step _ line sink ih => exact hrespond _ line ih
  | @run σ _ session _ ih =>
      rw [session.table_run]
      exact afterAll_of_respond hrespond ih session.heard

theorem Sound.respond_any {table : Table} (h : table.Sound) (line : Option String) :
    (table.respond line).table.Sound := by
  cases line with
  | none => exact h
  | some line =>
      by_cases hexit : line = Response.exitCommand
      · rw [hexit, respond_exitCommand]
        exact h
      · exact (h.respond hexit).2

theorem Reachable.sound {table : Table} (h : table.Reachable) : table.Sound :=
  h.invariant ⟨[], stores_empty⟩ fun _ line hsound => hsound.respond_any line

/-- The tables that lines and sessions lead to together with insertions by other callers. Such a
caller may hand over any row, and go on when it has broken a rule. -/
inductive Attainable : Table → Prop
  | empty : Attainable .empty
  | insert {table : Table} (h : Attainable table) (row : Row) :
      Attainable (table.insert row).table
  | step {σ : Type} [Sink σ] {table : Table} (h : Attainable table) (line : Option String)
      (sink : σ) : Attainable ((table.respond line).deliver sink).table
  | run {σ : Type} [Sink σ] {session : Session σ} (h : Attainable session.table) :
      Attainable session.run.1.table

theorem Sound.insert {table : Table} (h : table.Sound) (row : Row) :
    (table.insert row).table.Sound := by
  obtain ⟨rows, hrows⟩ := h
  rcases Nat.lt_or_eq_of_le hrows.length_le with hroom | hfull
  · by_cases hfits : row.Fits
    · exact ⟨_, (hrows.insert hroom hfits).2⟩
    · exact ⟨rows, hrows.insert_of_not_fits hroom hfits⟩
  · rw [hrows.insert_of_full hfull]
    exact ⟨rows, hrows⟩

theorem Attainable.sound {table : Table} (h : table.Attainable) : table.Sound := by
  induction h with
  | empty => exact ⟨[], stores_empty⟩
  | insert _ row ih => exact ih.insert row
  | step _ line _ ih => exact ih.respond_any line
  | @run σ _ session _ ih =>
      rw [session.table_run]
      exact afterAll_of_respond (fun _ line hsound => hsound.respond_any line) ih session.heard

end Table

/-- A session on a new table. It reads these bytes, and its output is recorded. -/
def Session.recorded (bytes : List UInt8) (failure : Option (Nat × String)) (limits : Limits) :
    Session Recorder :=
  { table := .empty, source := .ofBytes bytes none failure, sink := { limits } }

end RowStore
