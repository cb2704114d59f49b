import RowStore.Proofs.Session.Exchanges
import RowStore.Proofs.Session.Growth

/-! # What a session reports

The events of a session are known from the lines that it answered and from the
number of rows before each: neither the pages nor the streams have a say in
them. That a page is reported when the first row is put on it, and only then,
depends on the pages being allocated from the first one on, as many as the rows
need. So the reports of pages count up, and end where the pages of the table do.
-/

namespace RowStore

open Layout Text

/-- The page that an event reports. -/
def Event.page? : Event → Option Nat
  | pageAllocated page => some page
  | _ => none

/-! ## What a log shows -/

namespace Verbosity

theorem filter_trace (events : List Event) : filter (some .trace) events = events := by
  apply List.filter_eq_self.mpr
  intro event _
  cases event <;> rfl

theorem filter_debug (events : List Event) :
    filter (some .debug) events = events.filter (·.severity ≠ .trace) := by
  apply List.filter_congr
  intro event _
  cases event <;> rfl

/-- Unless something goes wrong, there is nothing to see at the other levels. -/
theorem filter_eq_nil {verbosity : Verbosity} {events : List Event}
    (htrace : verbosity ≠ some .trace) (hdebug : verbosity ≠ some .debug)
    (hevents : events.all (·.severity ≠ .error) = true) : filter verbosity events = [] := by
  apply List.filter_eq_nil_iff.mpr
  intro event hevent
  have hmild : event.severity ≠ .error :=
    of_decide_eq_true (List.all_eq_true.mp hevents event hevent)
  match verbosity with
  | none => exact Bool.false_ne_true
  | some .trace => exact absurd rfl htrace
  | some .debug => exact absurd rfl hdebug
  | some .info | some .warn | some .error =>
      cases event with
      | aborted fault => exact absurd rfl hmild
      | _ => exact Bool.false_ne_true

end Verbosity

/-! ## What a line reports -/

/-- What is reported for a line that was parsed, if there are so many rows before it. -/
def Statement.report (rows : Nat) (line : String) : Statement → List Event
  | select => [.prepared .select]
  | insert row =>
      if rows < 1400 then
        .prepared (.insert row) :: if rows % 14 = 0 then [.pageAllocated (rows / 14)] else []
      else [.prepared (.insert row), .insertRefused 1400, .lineRejected line .tableFull]

/-- What is reported for a line, or for the end of input, if there are so many rows before it. -/
def report (rows : Nat) : Option String → List Event
  | none => [.inputEnded]
  | some line =>
      if line = ".exit" then [.exitRequested rows]
      else if line.toList.head? = some '.' then [.lineRejected line (.unknownCommand line)]
      else
        match Statement.parse line with
        | .error reason => [.lineRejected line reason]
        | .ok statement => statement.report rows line

section report

variable (rows : Nat) {line : String}

theorem report_of_isCommand (hline : line ≠ Response.exitCommand)
    (hcommand : Response.isCommand line = true) :
    report rows (some line) = [.lineRejected line (.unknownCommand line)] := by
  have hexit : line ≠ ".exit" := hline
  rw [report, if_neg hexit, if_pos (Response.isCommand_iff.mp hcommand)]

theorem report_of_error (hline : line ≠ Response.exitCommand)
    (hcommand : ¬ Response.isCommand line = true) {reason : Rejection}
    (hparse : Statement.parse line = .error reason) :
    report rows (some line) = [.lineRejected line reason] := by
  have hexit : line ≠ ".exit" := hline
  rw [report, if_neg hexit, if_neg (mt Response.isCommand_iff.mpr hcommand), hparse]

theorem report_of_ok (hline : line ≠ Response.exitCommand)
    (hcommand : ¬ Response.isCommand line = true) {statement : Statement}
    (hparse : Statement.parse line = .ok statement) :
    report rows (some line) = statement.report rows line := by
  have hexit : line ≠ ".exit" := hline
  rw [report, if_neg hexit, if_neg (mt Response.isCommand_iff.mpr hcommand), hparse]

theorem report_of_insert {line : Option String} {row : Row}
    (h : line.map Statement.parse = some (.ok (.insert row))) :
    ∃ text, report rows line = (Statement.insert row).report rows text := by
  obtain ⟨text, rfl, hparse⟩ := Option.map_eq_some_iff.mp h
  have hcommand : ¬ Response.isCommand text = true :=
    mt Statement.parse_of_isCommand (by simp [hparse])
  exact ⟨text, report_of_ok rows (Response.ne_exitCommand hcommand) hcommand hparse⟩

/-- Nothing but an insertion has more than one event, or reports a page. -/
theorem report_of_not_insert {line : Option String}
    (h : ∀ row, line.map Statement.parse ≠ some (.ok (.insert row))) :
    ∃ event : Event, report rows line = [event] ∧ event.page? = none ∧ event.severity ≠ .error := by
  cases line with
  | none => exact ⟨_, rfl, rfl, nofun⟩
  | some line =>
      induction line using Response.lineCases with
      | exit => exact ⟨_, rfl, rfl, nofun⟩
      | command line hline hcommand =>
          exact ⟨_, report_of_isCommand rows hline hcommand, rfl, nofun⟩
      | rejected line reason hline hcommand hparse =>
          exact ⟨_, report_of_error rows hline hcommand hparse, rfl, nofun⟩
      | parsed line statement hline hcommand hparse =>
          cases statement with
          | select => exact ⟨_, report_of_ok rows hline hcommand hparse, rfl, nofun⟩
          | insert row => exact absurd (congrArg some hparse) (h row)

theorem all_report_insert (line : String) (row : Row) :
    ((Statement.insert row).report rows line).all (·.severity ≠ .error) = true := by
  rw [Statement.report]
  split
  · split <;> rfl
  · rfl

/-- No line is reported as an error. -/
theorem all_report (line : Option String) :
    (report rows line).all (·.severity ≠ .error) = true := by
  by_cases hinsert : ∃ row, line.map Statement.parse = some (.ok (.insert row))
  · obtain ⟨row, hrow⟩ := hinsert
    obtain ⟨text, hreport⟩ := report_of_insert rows hrow
    rw [hreport]
    exact all_report_insert rows text row
  · obtain ⟨event, hreport, -, hmild⟩ :=
      report_of_not_insert rows fun row hrow => hinsert ⟨row, hrow⟩
    rw [hreport, List.all_cons, List.all_nil, Bool.and_true]
    exact decide_eq_true hmild

end report

namespace Table

/-- What is reported for some lines, one after the other. -/
def reports (table : Table) : List (Option String) → List Event
  | [] => []
  | line :: lines => report table.len line ++ (table.respond line).table.reports lines

theorem reports_append (table : Table) (first second : List (Option String)) :
    table.reports (first ++ second) =
      table.reports first ++ (table.afterAll first).reports second := by
  induction first generalizing table with
  | nil => rfl
  | cons line first ih =>
      rw [List.cons_append, reports, reports, ih, List.append_assoc]
      rfl

theorem all_reports (table : Table) (lines : List (Option String)) :
    (table.reports lines).all (·.severity ≠ .error) = true := by
  induction lines generalizing table with
  | nil => rfl
  | cons line lines ih => rw [reports, List.all_append, all_report, ih, Bool.and_self]

/-- The page of the next row is there just if another row is on it. -/
theorem Packs.isSome_nextPage_iff {table : Table} {rows : List Row} (h : table.Packs rows) :
    table.nextPage.isSome = true ↔ table.len % 14 ≠ 0 := by
  have hnext : table.nextPage.isSome = true ↔ table.len / rowsPerPage < pagesFor rows.length :=
    h.allocates _
  rw [hnext, ← h.len_eq, rowsPerPage_eq, pagesFor]
  omega

theorem Packs.events_insert {table : Table} {rows : List Row} (h : table.Packs rows)
    (hroom : rows.length < maxRows) {row : Row} (hfits : row.Fits) :
    (table.insert row).events =
      if table.len % 14 = 0 then [.pageAllocated (table.len / 14)] else [] := by
  rw [insert_of_fits (h.len_eq ▸ hroom) hfits, rowsPerPage_eq]
  by_cases hpage : table.len % 14 = 0
  · rw [if_pos hpage, if_neg fun hsome => h.isSome_nextPage_iff.mp hsome hpage]
  · rw [if_neg hpage, if_pos (h.isSome_nextPage_iff.mpr hpage)]

/-- The events of an answer are those that the line and the number of rows call for. -/
theorem Packs.events_respond {table : Table} {rows : List Row} (h : table.Packs rows)
    (line : Option String) : (table.respond line).events = report table.len line := by
  cases line with
  | none => rfl
  | some line =>
      induction line using Response.lineCases with
      | exit => rw [respond_exitCommand]; rfl
      | command line hline hcommand =>
          rw [respond_of_isCommand hline hcommand, report_of_isCommand _ hline hcommand]
          rfl
      | rejected line reason hline hcommand hparse =>
          rw [respond_of_error hline hcommand hparse, report_of_error _ hline hcommand hparse]
          rfl
      | parsed line statement hline hcommand hparse =>
          rw [respond_of_ok hline hcommand hparse, report_of_ok _ hline hcommand hparse]
          cases statement with
          | select =>
              rw [h.toStores.ofStatement_select]
              rfl
          | insert row =>
              rw [Statement.report]
              rcases Nat.lt_or_eq_of_le h.length_le with hroom | hfull
              · have hshort : table.len < 1400 := h.len_eq ▸ hroom
                have hfits := Statement.fits_of_parse hparse
                rw [h.toStores.ofStatement_insert hroom _ hfits, if_pos hshort,
                  h.events_insert hroom hfits]
              · have hlen : table.len = 1400 := h.len_eq.trans hfull
                rw [h.toStores.ofStatement_insert_of_full hfull, hlen, if_neg (by decide)]
                rfl

/-- One more row needs a page of its own if it is the first one there. -/
theorem range_pagesFor_append (count : Nat) :
    List.range (pagesFor count) ++ (if count % 14 = 0 then [count / 14] else []) =
      List.range (pagesFor (count + 1)) := by
  rw [pagesFor_succ, pagesFor, rowsPerPage_eq]
  split
  next hpage =>
    have hpages : (count + 13) / 14 = count / 14 := by omega
    rw [hpages, List.range_succ]
  next hpage =>
    have hpages : (count + 13) / 14 = count / 14 + 1 := by omega
    rw [hpages, List.append_nil]

/-- The pages that a line reports are those that it allocates. -/
theorem Packs.range_append_report {table : Table} {rows : List Row} (h : table.Packs rows)
    (line : Option String) :
    List.range table.allocatedPages ++ (report table.len line).filterMap Event.page? =
      List.range (table.respond line).table.allocatedPages := by
  rcases table.respond_cases line with ⟨row, hline, hfits, htable⟩ | ⟨hline, htable⟩
  · obtain ⟨text, hreport⟩ := report_of_insert table.len hline
    rw [htable, hreport, Statement.report]
    rcases Nat.lt_or_eq_of_le h.length_le with hroom | hfull
    · have hshort : table.len < 1400 := h.len_eq ▸ hroom
      have hafter := (h.insert hroom hfits).allocates.allocatedPages_eq
      rw [List.length_append, List.length_singleton, ← h.len_eq] at hafter
      rw [if_pos hshort, h.allocates.allocatedPages_eq, hafter, ← range_pagesFor_append, ← h.len_eq]
      split <;> rfl
    · have hlen : ¬ table.len < 1400 := by
        rw [h.len_eq, hfull]
        decide
      rw [if_neg hlen, h.toStores.insert_of_full hfull]
      exact List.append_nil _
  · obtain ⟨event, hreport, hpage, -⟩ := report_of_not_insert table.len hline
    rw [htable, hreport, List.filterMap_cons_none hpage]
    exact List.append_nil _

theorem Packs.range_append_reports {table : Table} {rows : List Row} (h : table.Packs rows)
    (lines : List (Option String)) :
    List.range table.allocatedPages ++ (table.reports lines).filterMap Event.page? =
      List.range (table.afterAll lines).allocatedPages := by
  induction lines generalizing table rows with
  | nil => exact List.append_nil _
  | cons line lines ih =>
      rw [reports, List.filterMap_append, ← List.append_assoc, h.range_append_report,
        ih (h.respond line)]
      rfl

theorem Reachable.exists_packs {table : Table} (h : table.Reachable) : ∃ rows, table.Packs rows := by
  apply h.invariant ⟨[], packs_empty⟩
  rintro table line ⟨rows, hrows⟩
  exact ⟨_, hrows.respond line⟩

end Table

namespace Session

open Sink

variable {σ : Type} [Sink σ]

@[simp] theorem events_answer (session : Session σ) (line : Option String) :
    (session.answer line).1.events = session.events ++ (session.table.respond line).events := by
  simp only [answer, Response.deliver]
  split
  · rfl
  · rfl
  · split <;> rfl

theorem events_cycle {session : Session σ} {rows : List Row} (h : session.table.Packs rows) :
    session.cycle.1.events.toList =
      session.events.toList ++ session.table.reports session.handed.toList := by
  rcases session.cycle_cases with ⟨rest, sink, message, hhanded, hcycle⟩ |
    ⟨rest, sink, line, hhanded, hcycle⟩
  · rw [hcycle, hhanded]
    exact (List.append_nil _).symm
  · rw [hcycle, hhanded, events_answer, Array.toList_appendList, h.events_respond]
    exact congrArg _ (List.append_nil _).symm

/-- A session reports what it answers, and nothing else. -/
theorem events_run (session : Session σ) {rows : List Row} (h : session.table.Packs rows) :
    session.run.1.events.toList =
      session.events.toList ++ session.table.reports session.heard := by
  have hevents := events_cycle h
  have htable := session.table_cycle
  match hnext : session.cycle with
  | (next, none) =>
      rw [hnext] at hevents htable
      have hpacks := h.afterAll session.handed.toList
      rw [← htable] at hpacks
      rw [run_of_cycle_none hnext, heard_of_cycle_none hnext, Table.reports_append, ← htable,
        ← List.append_assoc, ← hevents]
      exact events_run next hpacks
  | (last, some outcome) =>
      rw [hnext] at hevents
      rw [run_of_cycle_some hnext, heard_of_cycle_some hnext]
      exact hevents
termination_by session.source.pending.length
decreasing_by exact pending_lt_of_cycle hnext

theorem events_of_unlimited (metered : Metered σ none) (session : Session σ) {rows : List Row}
    (h : session.table.Packs rows) (hsink : metered.Covers session.sink) :
    session.run.1.events.toList =
      session.events.toList ++ session.table.reports session.source.script.heard := by
  rw [session.events_run h, heard_of_unlimited metered session ⟨rows, h.toStores⟩ hsink]

/-- Whatever its streams do, a session on a new table reports what it answered, in this order: the
first ones of the lines that it can read, and that it was told to exit or came to the end of input,
unless it has failed. An answer that is not delivered is reported all the same. The pages that are
reported count up to the last one in use. All of this is seen at the finest level; one level above,
only the prepared statements are missing, and further up nothing is left. -/
theorem run_reports_what_is_heard (source : Source) (sink : σ) :
    let session : Session σ := { table := .empty, source, sink }
    let last := session.run.1
    let events := last.events.toList
    session.heard <+: source.script.heard ∧
    (∃ (lines : List String) (closing : List (Option String)),
      session.heard = lines.map some ++ closing ∧ ".exit" ∉ lines ∧
      (closing = [] ∧ session.run.2 ≠ .ok () ∨ closing = [some ".exit"] ∨ closing = [none])) ∧
    last.table = Table.empty.afterAll session.heard ∧
    events = Table.empty.reports session.heard ∧
    (∀ (table : Table) (line : Option String) (sink : σ), table.Reachable →
      ((table.respond line).deliver sink).events = report table.len line) ∧
    events.filterMap Event.page? = List.range last.table.allocatedPages ∧
    Verbosity.filter (some .trace) events = events ∧
    Verbosity.filter (some .debug) events = events.filter (·.severity ≠ .trace) ∧
    ∀ verbosity, verbosity ≠ some .trace → verbosity ≠ some .debug →
      Verbosity.filter verbosity events = [] := by
  intro session last events
  have hevents : events = Table.empty.reports session.heard := events_run session Table.packs_empty
  have htable : last.table = Table.empty.afterAll session.heard := session.table_run
  refine ⟨session.heard_isPrefix, session.exists_heard_eq, htable, hevents, ?_, ?_,
    Verbosity.filter_trace _, Verbosity.filter_debug _, ?_⟩
  · intro table line sink hreachable
    obtain ⟨rows, hrows⟩ := hreachable.exists_packs
    exact hrows.events_respond line
  · have hpages := Table.packs_empty.range_append_reports session.heard
    rw [Table.allocates_empty.allocatedPages_eq] at hpages
    rw [hevents, htable, ← hpages]
    rfl
  · intro verbosity htrace hdebug
    apply Verbosity.filter_eq_nil htrace hdebug
    rw [hevents]
    exact Table.empty.all_reports _

end Session

end RowStore
