import RowStore.Proofs.Statement.Grammar
import RowStore.Proofs.Table.Contents
import RowStore.Response

/-! # A reference for sessions

A ledger is a plain list of rows that answers lines. It knows no pages, no
slots and no streams: a line is answered by a text, an input by one text. Main
statement: the answer of a table to a line is that of the ledger with the same
rows, and afterwards both have the same rows again.
-/

namespace RowStore

open Text

namespace Ledger

def rowLine (row : Row) : String :=
  "(" ++ Nat.repr row.id.toNat ++ ", " ++ row.username ++ ", " ++ row.email ++ ")\n"

/-- The rows after a statement, and the text that answers it. -/
def execute (rows : List Row) : Statement → List Row × String
  | .select => (rows, String.join (rows.map rowLine) ++ "Executed.\n")
  | .insert row =>
      if rows.length < 1400 then
        let cut : Row :=
          { row with username := beforeNul row.username, email := beforeNul row.email }
        (rows ++ [cut], "Executed.\n")
      else (rows, "Error: Table full.\n")

/-- The rows after a line, and the text that answers it. There is no answer to the exit command. -/
def answer (rows : List Row) (line : String) : Option (List Row × String) :=
  if line = ".exit" then none
  else if line.toList.head? = some '.' then
    some (rows, "Unrecognized command '" ++ line ++ "'\n")
  else
    match Statement.parse line with
    | .error reason => some (rows, reason.message ++ "\n")
    | .ok statement => some (execute rows statement)

/-- The rows after some lines, and the text that a session shows for them. -/
def run (rows : List Row) : List String → List Row × String
  | [] => (rows, "db > ")
  | line :: lines =>
      match answer rows (Blank.trim line) with
      | none => (rows, "db > ")
      | some (rows, text) =>
          let rest := run rows lines
          (rest.1, "db > " ++ text ++ rest.2)

/-- The lines of an input. A last line without a newline counts unless it is empty. -/
def lines (input : String) : List String :=
  let pieces := input.toList.splitOn '\n'
  (if pieces.getLast? = some [] then pieces.dropLast else pieces).map String.ofList

end Ledger

/-! ## Kinds of lines -/

namespace Response

theorem isCommand_iff {line : String} : isCommand line = true ↔ line.toList.head? = some '.' :=
  beq_iff_eq

theorem ne_exitCommand {line : String} (h : ¬ isCommand line = true) : line ≠ exitCommand := by
  rintro rfl
  exact h rfl

/-- A line is the exit command, or an unknown one, or it is turned down, or it is a statement. -/
@[elab_as_elim]
theorem lineCases {motive : String → Prop} (exit : motive exitCommand)
    (command : ∀ line, line ≠ exitCommand → isCommand line = true → motive line)
    (rejected : ∀ line reason, line ≠ exitCommand → ¬ isCommand line = true →
      Statement.parse line = .error reason → motive line)
    (parsed : ∀ line statement, line ≠ exitCommand → ¬ isCommand line = true →
      Statement.parse line = .ok statement → motive line) (line : String) : motive line := by
  by_cases hline : line = exitCommand
  · rw [hline]
    exact exit
  · by_cases hcommand : isCommand line = true
    · exact command line hline hcommand
    · cases hparse : Statement.parse line with
      | error reason => exact rejected line reason hline hcommand hparse
      | ok statement => exact parsed line statement hline hcommand hparse

end Response

namespace Ledger

variable (rows : List Row) {line : String}

theorem answer_exitCommand : answer rows Response.exitCommand = none :=
  if_pos rfl

theorem answer_of_isCommand (hline : line ≠ Response.exitCommand)
    (hcommand : Response.isCommand line = true) :
    answer rows line = some (rows, "Unrecognized command '" ++ line ++ "'\n") := by
  have hexit : line ≠ ".exit" := hline
  rw [answer, if_neg hexit, if_pos (Response.isCommand_iff.mp hcommand)]

theorem answer_of_error (hline : line ≠ Response.exitCommand)
    (hcommand : ¬ Response.isCommand line = true) {reason : Rejection}
    (hparse : Statement.parse line = .error reason) :
    answer rows line = some (rows, reason.message ++ "\n") := by
  have hexit : line ≠ ".exit" := hline
  rw [answer, if_neg hexit, if_neg (mt Response.isCommand_iff.mpr hcommand), hparse]

theorem answer_of_ok (hline : line ≠ Response.exitCommand)
    (hcommand : ¬ Response.isCommand line = true) {statement : Statement}
    (hparse : Statement.parse line = .ok statement) :
    answer rows line = some (execute rows statement) := by
  have hexit : line ≠ ".exit" := hline
  rw [answer, if_neg hexit, if_neg (mt Response.isCommand_iff.mpr hcommand), hparse]

end Ledger

namespace Table

variable {table : Table} {line : String}

theorem respond_exitCommand (table : Table) :
    table.respond (some Response.exitCommand) =
      { table, events := [.exitRequested table.len], text := [], outcome := .ok .exit } := by
  rw [respond, Response.ofLine, if_pos rfl]

theorem respond_of_isCommand (hline : line ≠ Response.exitCommand)
    (hcommand : Response.isCommand line = true) :
    table.respond (some line) = Response.reject table [] line (.unknownCommand line) := by
  rw [respond, Response.ofLine, if_neg hline, if_pos hcommand]

theorem respond_of_error (hline : line ≠ Response.exitCommand)
    (hcommand : ¬ Response.isCommand line = true) {reason : Rejection}
    (hparse : Statement.parse line = .error reason) :
    table.respond (some line) = Response.reject table [] line reason := by
  rw [respond, Response.ofLine, if_neg hline, if_neg hcommand, hparse]

theorem respond_of_ok (hline : line ≠ Response.exitCommand)
    (hcommand : ¬ Response.isCommand line = true) {statement : Statement}
    (hparse : Statement.parse line = .ok statement) :
    table.respond (some line) = Response.ofStatement table line statement := by
  rw [respond, Response.ofLine, if_neg hline, if_neg hcommand, hparse]

/-- One line ends a session. -/
theorem outcome_respond_eq_exit_iff :
    (table.respond (some line)).outcome = .ok .exit ↔ line = Response.exitCommand := by
  induction line using Response.lineCases with
  | exit =>
      rw [respond_exitCommand]
      exact iff_of_true rfl rfl
  | command line hline hcommand =>
      rw [respond_of_isCommand hline hcommand]
      exact iff_of_false nofun hline
  | rejected line reason hline hcommand hparse =>
      rw [respond_of_error hline hcommand hparse]
      exact iff_of_false nofun hline
  | parsed line statement hline hcommand hparse =>
      rw [respond_of_ok hline hcommand hparse, Response.ofStatement]
      split
      · exact iff_of_false nofun hline
      · split
        · exact iff_of_false nofun hline
        · exact iff_of_false nofun hline

end Table

/-- No command is a statement. -/
theorem Statement.parse_of_isCommand {line : String} (h : Response.isCommand line = true) :
    Statement.parse line = .error (.unknownKeyword line) := by
  have hdot := Response.isCommand_iff.mp h
  have hblank : Blank.isBlank '.' = false := by decide
  obtain ⟨word, later, hwords, hword⟩ := (Blank.splits_words line).exists_cons_of_head? hblank hdot
  -- A keyword does not begin with a dot.
  have hne {keyword : String} (hkeyword : keyword.toList.head? ≠ some '.') :
      (Blank.words line).head? ≠ some keyword := by
    rw [hwords, List.head?_cons]
    rintro ⟨⟩
    exact hkeyword hword
  exact Statement.parse_of_head?_ne (hne (by decide)) (hne (by decide))

theorem Table.respond_of_parse (table : Table) {line : String} {statement : Statement}
    (h : Statement.parse line = .ok statement) :
    table.respond (some line) = Response.ofStatement table line statement := by
  have hcommand : ¬ Response.isCommand line = true := mt Statement.parse_of_isCommand (by simp [h])
  exact respond_of_ok (Response.ne_exitCommand hcommand) hcommand h

/-- A parsed insertion has been checked for its room. -/
theorem Statement.fits_of_parse {line : String} {row : Row}
    (h : Statement.parse line = .ok (.insert row)) : row.Fits := by
  have hgrammar := (Statement.parse_eq_iff (Blank.splits_words line)).mp h
  obtain ⟨-, -, -, -, husername, hemail, -⟩ := Statement.grammar_insert_iff.mp hgrammar
  exact ⟨husername, hemail⟩

namespace Table

/-! ## Statements on a table that stores rows -/

theorem Stores.ofStatement_select {table : Table} {rows : List Row} (h : table.Stores rows)
    (line : String) :
    Response.ofStatement table line .select =
      { table
        events := [.prepared .select]
        text := (rows.map fun row => row.stored.display ++ "\n") ++ [Response.executed]
        outcome := .ok .proceed } := by
  simp only [Response.ofStatement, Statement.execute, h.rows_eq, List.map_map, Function.comp_def]

theorem Stores.ofStatement_insert {table : Table} {rows : List Row} (h : table.Stores rows)
    (hroom : rows.length < Layout.maxRows) (line : String) {row : Row} (hfits : row.Fits) :
    Response.ofStatement table line (.insert row) =
      { table := (table.insert row).table
        events := .prepared (.insert row) :: (table.insert row).events
        text := [Response.executed]
        outcome := .ok .proceed } := by
  simp only [Response.ofStatement, Statement.execute, (h.insert hroom hfits).1, List.nil_append]

theorem Stores.ofStatement_insert_of_full {table : Table} {rows : List Row}
    (h : table.Stores rows) (hfull : rows.length = Layout.maxRows) (line : String) (row : Row) :
    Response.ofStatement table line (.insert row) =
      Response.reject table [.prepared (.insert row), .insertRefused table.len] line .tableFull := by
  simp only [Response.ofStatement, Statement.execute, h.insert_of_full hfull]
  rfl

/-! ## Lines on a table that stores rows -/

theorem unknownCommand_line (line : String) :
    (Rejection.unknownCommand line).message ++ "\n" = "Unrecognized command '" ++ line ++ "'\n" := by
  have hend : "'" ++ "\n" = "'\n" := by decide
  calc (Rejection.unknownCommand line).message ++ "\n"
      = "Unrecognized command '" ++ line ++ ("'" ++ "\n") := String.append_assoc
    _ = "Unrecognized command '" ++ line ++ "'\n" := by rw [hend]

theorem unknownKeyword_line (line : String) :
    (Rejection.unknownKeyword line).message ++ "\n" =
      "Unrecognized keyword at start of '" ++ line ++ "'.\n" := by
  have hend : "'." ++ "\n" = "'.\n" := by decide
  calc (Rejection.unknownKeyword line).message ++ "\n"
      = "Unrecognized keyword at start of '" ++ line ++ ("'." ++ "\n") := String.append_assoc
    _ = "Unrecognized keyword at start of '" ++ line ++ "'.\n" := by rw [hend]

theorem join_singleton (text : String) : String.join [text] = text := by
  rw [String.join_cons, String.join_nil, String.append_empty]

/-- A statement is answered as by the ledger with the same rows. -/
theorem Stores.ofStatement {table : Table} {rows : List Row} (h : table.Stores rows)
    (line : String) (statement : Statement)
    (hfits : ∀ row, statement = .insert row → row.Fits) :
    ∃ more, (Response.ofStatement table line statement).outcome = .ok .proceed ∧
      (Response.ofStatement table line statement).table.Stores (rows ++ more) ∧
      Ledger.execute (rows.map Row.stored) statement =
        ((rows ++ more).map Row.stored,
          String.join (Response.ofStatement table line statement).text) := by
  cases statement with
  | select =>
      refine ⟨[], ?_⟩
      rw [List.append_nil, h.ofStatement_select]
      refine ⟨rfl, h, ?_⟩
      have hlines : (rows.map Row.stored).map Ledger.rowLine =
          rows.map fun row => row.stored.display ++ "\n" := by
        rw [List.map_map]
        apply List.map_congr_left
        intro row _
        simp [Ledger.rowLine, Row.display, String.append_assoc]
      rw [Ledger.execute, hlines, String.join_append, join_singleton]
      rfl
  | insert row =>
      -- The table and the ledger are full at the same time, since they have the same rows.
      rcases Nat.lt_or_eq_of_le h.length_le with hroom | hfull
      · have hfits := hfits row rfl
        refine ⟨[row], ?_⟩
        rw [h.ofStatement_insert hroom _ hfits]
        refine ⟨rfl, (h.insert hroom hfits).2, ?_⟩
        have hshort : rows.length < 1400 := hroom
        rw [Ledger.execute, List.length_map, if_pos hshort, List.map_append, join_singleton]
        rfl
      · refine ⟨[], ?_⟩
        rw [List.append_nil, h.ofStatement_insert_of_full hfull]
        refine ⟨rfl, h, ?_⟩
        have hnot : ¬ rows.length < 1400 := by
          rw [hfull]
          decide
        rw [Ledger.execute, List.length_map, if_neg hnot, Response.reject, join_singleton]
        rfl

/-- A line other than the exit command is answered as by the ledger with the same rows, and the
session goes on. -/
theorem Stores.respond {table : Table} {rows : List Row} (h : table.Stores rows) {line : String}
    (hline : line ≠ Response.exitCommand) :
    ∃ more, (table.respond (some line)).outcome = .ok .proceed ∧
      (table.respond (some line)).table.Stores (rows ++ more) ∧
      Ledger.answer (rows.map Row.stored) line =
        some ((rows ++ more).map Row.stored, String.join (table.respond (some line)).text) := by
  induction line using Response.lineCases with
  | exit => exact absurd rfl hline
  | command line hline hcommand =>
      refine ⟨[], ?_⟩
      rw [List.append_nil, respond_of_isCommand hline hcommand,
        Ledger.answer_of_isCommand _ hline hcommand, Response.reject, join_singleton,
        unknownCommand_line]
      exact ⟨rfl, h, rfl⟩
  | rejected line reason hline hcommand hparse =>
      refine ⟨[], ?_⟩
      rw [List.append_nil, respond_of_error hline hcommand hparse,
        Ledger.answer_of_error _ hline hcommand hparse, Response.reject, join_singleton]
      exact ⟨rfl, h, rfl⟩
  | parsed line statement hline hcommand hparse =>
      have hfits : ∀ row, statement = .insert row → row.Fits := by
        rintro row rfl
        exact Statement.fits_of_parse hparse
      obtain ⟨more, houtcome, hstores, hexecute⟩ := h.ofStatement line statement hfits
      refine ⟨more, ?_⟩
      rw [respond_of_ok hline hcommand hparse, Ledger.answer_of_ok _ hline hcommand hparse, hexecute]
      exact ⟨houtcome, hstores, rfl⟩

theorem Stores.respond_of_answer {table : Table} {rows : List Row} (h : table.Stores rows)
    {line : String} {rows' : List Row} {text : String}
    (hanswer : Ledger.answer (rows.map Row.stored) line = some (rows', text)) :
    (table.respond (some line)).table.rows = .ok rows' ∧
      String.join (table.respond (some line)).text = text := by
  have hline : line ≠ Response.exitCommand := by
    rintro rfl
    rw [Ledger.answer_exitCommand] at hanswer
    cases hanswer
  obtain ⟨more, -, hstores, hrespond⟩ := h.respond hline
  obtain ⟨rfl, rfl⟩ := Prod.mk.inj (Option.some.inj (hrespond.symm.trans hanswer))
  exact ⟨hstores.rows_eq, rfl⟩

end Table

end RowStore
