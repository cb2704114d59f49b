import Mathlib.Data.List.Infix
import RowStore.Proofs.Session.Exchanges

/-! # How lines are spaced

Blanks play a part in three places: a newline ends a line, a line is trimmed, and
it is cut into words. The first character of the trimmed line decides whether it
is a command, and its words decide all the rest. Both ask for the same: a line
is answered according to its words, and how these are spaced shows only where
the line itself is echoed.
-/

namespace RowStore

open Text

/-- Two exchanges in which the same is shown, but for the lines that are echoed. -/
inductive Exchange.Alike : Exchange → Exchange → Prop
  | same (line other answer : String) : Alike ⟨line, answer⟩ ⟨other, answer⟩
  | unknownCommand (line other : String) :
      Alike ⟨line, "Unrecognized command '" ++ line ++ "'\n"⟩
        ⟨other, "Unrecognized command '" ++ other ++ "'\n"⟩
  | unknownKeyword (line other : String) :
      Alike ⟨line, "Unrecognized keyword at start of '" ++ line ++ "'.\n"⟩
        ⟨other, "Unrecognized keyword at start of '" ++ other ++ "'.\n"⟩

namespace Response

/-! ## Kinds of lines by their words -/

theorem trim_eq_exitCommand_iff {line : String} :
    Blank.trim line = exitCommand ↔ Blank.words line = [exitCommand] := by
  constructor
  · intro h
    rw [← Blank.words_trim, h]
    decide +kernel
  · exact Blank.trim_eq_of_words_eq_singleton

theorem trim_eq_exitCommand_congr {line other : String}
    (h : Blank.words line = Blank.words other) :
    Blank.trim line = exitCommand ↔ Blank.trim other = exitCommand := by
  rw [trim_eq_exitCommand_iff, trim_eq_exitCommand_iff, h]

/-- A line is a command just if its first word begins with a dot. -/
theorem isCommand_trim_iff {line : String} :
    isCommand (Blank.trim line) = true ↔
      ∃ first later, Blank.words line = first :: later ∧ first.toList.head? = some '.' := by
  rw [isCommand, beq_iff_eq, Blank.head?_trim, Option.bind_eq_some_iff]
  constructor
  · rintro ⟨first, hfirst, hdot⟩
    obtain ⟨later, hwords⟩ := List.head?_eq_some_iff.mp hfirst
    exact ⟨first, later, hwords, hdot⟩
  · rintro ⟨first, later, hwords, hdot⟩
    exact ⟨first, by rw [hwords, List.head?_cons], hdot⟩

theorem isCommand_trim_congr {line other : String} (h : Blank.words line = Blank.words other) :
    isCommand (Blank.trim line) = isCommand (Blank.trim other) := by
  rw [isCommand, isCommand, Blank.head?_trim, Blank.head?_trim, h]

end Response

namespace Table

/-! ## Lines with the same words -/

/-- Apart from the log, the line that a statement was parsed from has no influence on it. -/
theorem ofStatement_congr (table : Table) (line other : String) (statement : Statement) :
    (Response.ofStatement table line statement).text =
        (Response.ofStatement table other statement).text ∧
      (Response.ofStatement table line statement).table =
        (Response.ofStatement table other statement).table := by
  rw [Response.ofStatement, Response.ofStatement]
  split
  · exact ⟨rfl, rfl⟩
  · split
    · exact ⟨rfl, rfl⟩
    · exact ⟨rfl, rfl⟩

/-- Lines with the same words lead a table to the same table, and are answered alike. -/
theorem respond_of_words_eq (table : Table) {line other : String}
    (h : Blank.words line = Blank.words other) :
    (table.respond (some (Blank.trim line))).table =
        (table.respond (some (Blank.trim other))).table ∧
      Exchange.Alike
        ⟨Blank.trim line, String.join (table.respond (some (Blank.trim line))).text⟩
        ⟨Blank.trim other, String.join (table.respond (some (Blank.trim other))).text⟩ := by
  have hcongr := Response.trim_eq_exitCommand_congr h
  by_cases hexit : Blank.trim other = Response.exitCommand
  · rw [hcongr.mpr hexit, hexit]
    exact ⟨rfl, .same _ _ _⟩
  · have hline : Blank.trim line ≠ Response.exitCommand := fun hline => hexit (hcongr.mp hline)
    have hkind := Response.isCommand_trim_congr h
    by_cases hcommand : Response.isCommand (Blank.trim other) = true
    · rw [respond_of_isCommand hexit hcommand, respond_of_isCommand hline (hkind.trans hcommand),
        Response.reject, Response.reject, join_singleton, join_singleton, unknownCommand_line,
        unknownCommand_line]
      exact ⟨rfl, .unknownCommand _ _⟩
    · have hstatement : ¬ Response.isCommand (Blank.trim line) = true := by rwa [hkind]
      have hwords : Blank.words (Blank.trim line) = Blank.words (Blank.trim other) := by
        rw [Blank.words_trim, Blank.words_trim, h]
      rcases Statement.parse_of_words_eq hwords with hparse | ⟨hparse, hother⟩
      · cases hresult : Statement.parse (Blank.trim other) with
        | error reason =>
            rw [respond_of_error hexit hcommand hresult,
              respond_of_error hline hstatement (hparse.trans hresult)]
            exact ⟨rfl, .same _ _ _⟩
        | ok statement =>
            rw [respond_of_ok hexit hcommand hresult,
              respond_of_ok hline hstatement (hparse.trans hresult)]
            obtain ⟨htext, htable⟩ :=
              table.ofStatement_congr (Blank.trim line) (Blank.trim other) statement
            rw [htext]
            exact ⟨htable, .same _ _ _⟩
      · rw [respond_of_error hexit hcommand hother, respond_of_error hline hstatement hparse,
          Response.reject, Response.reject, join_singleton, join_singleton, unknownKeyword_line,
          unknownKeyword_line]
        exact ⟨rfl, .unknownKeyword _ _⟩

theorem exchanges_of_words_eq {lines others : List String}
    (h : lines.map Blank.words = others.map Blank.words) (table : Table) :
    List.Forall₂ Exchange.Alike (table.exchanges (Ledger.answered lines))
        (table.exchanges (Ledger.answered others)) ∧
      table.after (Ledger.answered lines) = table.after (Ledger.answered others) := by
  induction lines generalizing table others with
  | nil =>
      rw [List.map_nil, eq_comm, List.map_eq_nil_iff] at h
      subst h
      exact ⟨.nil, rfl⟩
  | cons line lines ih =>
      obtain ⟨other, others, rfl, hline, hlines⟩ := List.map_eq_cons_iff.mp h.symm
      have hcongr := Response.trim_eq_exitCommand_congr hline
      by_cases hexit : Blank.trim line = Response.exitCommand
      · rw [Ledger.answered_of_exit hexit, Ledger.answered_of_exit (hcongr.mpr hexit)]
        exact ⟨.nil, rfl⟩
      · have hother : Blank.trim other ≠ Response.exitCommand :=
          fun hother => hexit (hcongr.mp hother)
        obtain ⟨htable, halike⟩ := table.respond_of_words_eq hline.symm
        rw [Ledger.answered_of_ne_exit hexit, Ledger.answered_of_ne_exit hother, exchanges,
          exchanges, ← htable]
        obtain ⟨hrest, hafter⟩ := ih hlines.symm (table.respond (some (Blank.trim line))).table
        refine ⟨.cons halike hrest, hafter.trans ?_⟩
        exact congrArg (fun table => table.after (Ledger.answered others)) htable

end Table

namespace Ledger

theorem heard_of_words_eq {lines others : List String}
    (h : lines.map Blank.words = others.map Blank.words) :
    (heard lines).map (Option.map Blank.words) = (heard others).map (Option.map Blank.words) := by
  induction lines generalizing others with
  | nil =>
      rw [List.map_nil, eq_comm, List.map_eq_nil_iff] at h
      rw [h]
  | cons line lines ih =>
      obtain ⟨other, others, rfl, hline, hlines⟩ := List.map_eq_cons_iff.mp h.symm
      have hcongr := Response.trim_eq_exitCommand_congr hline
      by_cases hexit : Blank.trim line = Response.exitCommand
      · rw [heard, heard, if_pos hexit, if_pos (hcongr.mpr hexit)]
      · have hother : Blank.trim other ≠ Response.exitCommand :=
          fun hother => hexit (hcongr.mp hother)
        rw [heard, heard, if_neg hexit, if_neg hother, List.map_cons, List.map_cons,
          ih hlines.symm, Option.map_some, Option.map_some, Blank.words_trim, Blank.words_trim,
          hline]

/-- The lines that are answered are the first ones, without the blanks at their ends. -/
theorem answered_eq_take (lines : List String) :
    answered lines = (lines.map Blank.trim).take (answered lines).length :=
  List.prefix_iff_eq_take.mp (List.takeWhile_prefix _)

end Ledger

namespace Session

open Sink

variable {σ : Type} [Sink σ]

/-- Two inputs whose lines have the same words lead to two sessions that answer their lines in
lockstep, end in the same way and leave the same table. Their outputs differ only where a line is
echoed. In particular, a line ends the session if the exit command is its only word, and it is a
command if its first word begins with a dot. -/
theorem run_depends_on_words (metered : Metered σ none) (table : Table) (input input' : String)
    (source source' : Source) (sink sink' : σ) (htable : table.Reachable)
    (hsource : source.Shows (Utf8.encode input) none)
    (hsource' : source'.Shows (Utf8.encode input') none)
    (hsink : metered.Covers sink) (hsink' : metered.Covers sink')
    (hwords : (Ledger.lines input).map Blank.words = (Ledger.lines input').map Blank.words) :
    let one : Session σ := { table, source, sink }
    let other : Session σ := { table, source := source', sink := sink' }
    let exchanges := table.exchanges (Ledger.answered (Ledger.lines input))
    let exchanges' := table.exchanges (Ledger.answered (Ledger.lines input'))
    one.heard.map (Option.map Blank.words) = other.heard.map (Option.map Blank.words) ∧
      one.run.2 = .ok () ∧ other.run.2 = .ok () ∧ one.run.1.table = other.run.1.table ∧
      exchanges.map Exchange.line =
        ((Ledger.lines input).map Blank.trim).take exchanges.length ∧
      exchanges'.map Exchange.line =
        ((Ledger.lines input').map Blank.trim).take exchanges'.length ∧
      List.Forall₂ Exchange.Alike exchanges exchanges' ∧
      metered.written one.run.1.sink =
        metered.written sink ++ Utf8.encode (Exchange.shown exchanges) ∧
      metered.written other.run.1.sink =
        metered.written sink' ++ Utf8.encode (Exchange.shown exchanges') ∧
      ∀ line, ((table.respond (some (Blank.trim line))).outcome = .ok .exit ↔
          Blank.words line = [".exit"]) ∧
        (Response.isCommand (Blank.trim line) = true ↔
          ∃ first later, Blank.words line = first :: later ∧ first.toList.head? = some '.') := by
  intro one other exchanges exchanges'
  obtain ⟨hheard, hone, htableOne, hwritten⟩ := run_of_text metered one htable.sound hsink hsource
  obtain ⟨hheard', hother, htableOther, hwritten'⟩ :=
    run_of_text metered other htable.sound hsink' hsource'
  obtain ⟨halike, hafter⟩ := Table.exchanges_of_words_eq hwords table
  have hlines (input : String) :
      (table.exchanges (Ledger.answered (Ledger.lines input))).map Exchange.line =
        ((Ledger.lines input).map Blank.trim).take
          (table.exchanges (Ledger.answered (Ledger.lines input))).length := by
    rw [← List.length_map Exchange.line, Table.map_line_exchanges]
    exact Ledger.answered_eq_take _
  refine ⟨?_, hone, hother, htableOne.trans (hafter.trans htableOther.symm), hlines input,
    hlines input', halike, hwritten, hwritten', ?_⟩
  · rw [hheard, hheard']
    exact Ledger.heard_of_words_eq hwords
  · intro line
    rw [Table.outcome_respond_eq_exit_iff]
    exact ⟨Response.trim_eq_exitCommand_iff, Response.isCommand_trim_iff⟩

/-- Of two unknown commands with the same words, each is echoed as it was spaced. -/
theorem run_depends_on_words_of_echoes :
    (recorded (Utf8.encode "insert\t1 ann a@b\r\n.help  me\n\u3000\nselect") none {}).run.1.table =
      (recorded (Utf8.encode " insert 1 ann\u00a0a@b\n.help me\n\nselect\n") none {}).run.1.table ∧
    (recorded (Utf8.encode "insert\t1 ann a@b\r\n.help  me\n\u3000\nselect") none
        {}).run.1.sink.written.toList =
      Utf8.encode ("db > Executed.\ndb > Unrecognized command '.help  me'\n" ++
        "db > Unrecognized keyword at start of ''.\ndb > (1, ann, a@b)\nExecuted.\ndb > ") ∧
    (recorded (Utf8.encode " insert 1 ann\u00a0a@b\n.help me\n\nselect\n") none
        {}).run.1.sink.written.toList =
      Utf8.encode ("db > Executed.\ndb > Unrecognized command '.help me'\n" ++
        "db > Unrecognized keyword at start of ''.\ndb > (1, ann, a@b)\nExecuted.\ndb > ") := by
  have hwords :
      (Ledger.lines "insert\t1 ann a@b\r\n.help  me\n\u3000\nselect").map Blank.words =
        (Ledger.lines " insert 1 ann\u00a0a@b\n.help me\n\nselect\n").map Blank.words := by
    decide +kernel
  have hrun :
      Ledger.run [] (Ledger.lines "insert\t1 ann a@b\r\n.help  me\n\u3000\nselect") =
        ([⟨1, "ann", "a@b"⟩], "db > Executed.\ndb > Unrecognized command '.help  me'\n" ++
          "db > Unrecognized keyword at start of ''.\ndb > (1, ann, a@b)\nExecuted.\ndb > ") := by
    decide +kernel
  have hrun' : Ledger.run [] (Ledger.lines " insert 1 ann\u00a0a@b\n.help me\n\nselect\n") =
      ([⟨1, "ann", "a@b"⟩], "db > Executed.\ndb > Unrecognized command '.help me'\n" ++
        "db > Unrecognized keyword at start of ''.\ndb > (1, ann, a@b)\nExecuted.\ndb > ") := by
    decide +kernel
  obtain ⟨-, -, -, htable, -, -, -, hwritten, hwritten', -⟩ :=
    run_depends_on_words (Recorder.metered {} (Limits.allowance_eq_none rfl) rfl) .empty _ _ _ _
      {} {} .empty (Source.shows_ofBytes _ none none) (Source.shows_ofBytes _ none none) rfl rfl
      hwords
  rw [Table.stores_empty.shown_exchanges_of_ledger hrun, Recorder.written_metered,
    Recorder.written_metered] at hwritten
  rw [Table.stores_empty.shown_exchanges_of_ledger hrun', Recorder.written_metered,
    Recorder.written_metered] at hwritten'
  exact ⟨htable, hwritten, hwritten'⟩

end Session

end RowStore
