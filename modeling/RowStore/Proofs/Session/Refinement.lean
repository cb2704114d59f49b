import RowStore.Proofs.Session.Reachable

/-! # Sessions refine a list of rows

A session on valid text does nothing that cannot be said of a list of rows: its
output and its table are those of the ledger that starts with the rows of the
table and answers the lines of the text. The two are brought together by the
script, which says of the bytes what the ledger says of the text.
-/

namespace RowStore

open Text

namespace Ledger

/-! ## Lines of a text -/

theorem lines_eq (input : String) : lines input = (pieces '\n' input.toList).map String.ofList := rfl

theorem lines_of_newline {input : String} {before after : List Char}
    (hinput : input.toList = before ++ '\n' :: after) (hbefore : '\n' ∉ before) :
    lines input = String.ofList before :: lines (String.ofList after) := by
  rw [lines_eq, lines_eq, hinput, String.toList_ofList, pieces_append_cons hbefore, List.map_cons]

theorem lines_of_not_mem {input : String} (hinput : '\n' ∉ input.toList) (hne : input ≠ "") :
    lines input = [input] := by
  have hchars : input.toList ≠ [] := by simpa using hne
  rw [lines_eq, pieces_of_not_mem hinput hchars, List.map_singleton, String.ofList_toList]

/-! ## Lines on a table -/

/-- What a session answers of some lines. -/
def answered (lines : List String) : List String :=
  (lines.map Blank.trim).takeWhile (· ≠ Response.exitCommand)

theorem answered_of_exit {line : String} (hline : Blank.trim line = Response.exitCommand)
    (lines : List String) : answered (line :: lines) = [] := by
  rw [answered, List.map_cons, hline]
  exact List.takeWhile_cons_of_neg (by simp)

theorem answered_of_ne_exit {line : String} (hline : Blank.trim line ≠ Response.exitCommand)
    (lines : List String) : answered (line :: lines) = Blank.trim line :: answered lines := by
  rw [answered, List.map_cons]
  exact List.takeWhile_cons_of_pos (by simpa using hline)

end Ledger

namespace Table

/-- Lines lead a table and the ledger with the same rows to the same rows again, and the ledger
gives the dialogue of the table. -/
theorem Stores.run_ledger {table : Table} {rows : List Row} (h : table.Stores rows)
    (lines : List String) :
    ∃ more, (table.after (Ledger.answered lines)).Stores (rows ++ more) ∧
      Ledger.run (rows.map Row.stored) lines =
        ((rows ++ more).map Row.stored, table.dialogue (Ledger.answered lines)) := by
  induction lines generalizing table rows with
  | nil =>
      refine ⟨[], ?_⟩
      rw [List.append_nil]
      exact ⟨h, rfl⟩
  | cons line lines ih =>
      -- The table after the line stores the rows of the ledger after it, so the lines go on there.
      by_cases hexit : Blank.trim line = Response.exitCommand
      · refine ⟨[], ?_⟩
        rw [List.append_nil, Ledger.answered_of_exit hexit, Ledger.run, hexit,
          Ledger.answer_exitCommand]
        exact ⟨h, rfl⟩
      · obtain ⟨added, -, hstores, hanswer⟩ := h.respond hexit
        obtain ⟨more, hafter, hrun⟩ := ih hstores
        refine ⟨added ++ more, ?_⟩
        rw [← List.append_assoc, Ledger.answered_of_ne_exit hexit, Ledger.run, hanswer, dialogue_cons]
        refine ⟨hafter, ?_⟩
        simp only [hrun]
        rfl

end Table

namespace Source

theorem encode_of_newline {input : String} {before after : List Char}
    (hinput : input.toList = before ++ '\n' :: after) :
    Utf8.encode input =
      Utf8.encode (String.ofList before) ++ newline :: Utf8.encode (String.ofList after) := by
  rw [Utf8.encode_eq_flatMap, hinput, List.flatMap_append, List.flatMap_cons,
    Utf8.utf8EncodeChar_newline, Utf8.encode_ofList, Utf8.encode_ofList, List.singleton_append]

/-- The bytes of a text are cut into the bytes of its lines: a newline is part of no other
character. -/
theorem texts_encode (input : String) :
    (pieces newline (Utf8.encode input)).map text? =
      (Ledger.lines input).map fun line => some (Blank.trim line) := by
  obtain ⟨cs, rfl⟩ : ∃ cs, input = String.ofList cs := ⟨input.toList, String.ofList_toList.symm⟩
  induction cs using pieceInduction '\n' with
  | nil => rfl
  | tail last hlast hne =>
      have hbytes : Utf8.encode (String.ofList last) ≠ [] := by
        intro hnil
        have hempty : String.ofList last = "" := Utf8.encode_injective hnil
        exact hne (by simpa using hempty)
      rw [pieces_of_not_mem _ hbytes, Ledger.lines_of_not_mem, List.map_singleton, text?_encode]
      · rfl
      · rwa [String.toList_ofList]
      · simpa using hne
      · rwa [Utf8.newline_mem_encode_iff, String.toList_ofList]
  | piece first rest hfirst ih =>
      have hline : newline ∉ Utf8.encode (String.ofList first) := by
        rwa [Utf8.newline_mem_encode_iff, String.toList_ofList]
      rw [encode_of_newline String.toList_ofList, pieces_append_cons hline, List.map_cons, ih,
        text?_encode, Ledger.lines_of_newline String.toList_ofList hfirst, List.map_cons]

/-- Valid lines are answered up to the exit command. -/
theorem heed_map_some (lines : List String) :
    (heed (lines.map fun line => some (Blank.trim line))).1 = Ledger.answered lines := by
  induction lines with
  | nil => rfl
  | cons line lines ih =>
      rw [List.map_cons, heed]
      split
      next hexit => rw [Ledger.answered_of_exit hexit]
      next hexit => rw [Ledger.answered_of_ne_exit hexit, ← ih]

theorem not_breaks_map_some (lines : List String) :
    ¬ Breaks (lines.map fun line => some (Blank.trim line)) := by
  rintro ⟨before, after, htexts, -⟩
  have hmem : none ∈ lines.map fun line => some (Blank.trim line) := by
    rw [htexts]
    exact List.mem_append_right _ List.mem_cons_self
  simp at hmem

/-- A session reads from the bytes of a text the lines of the text, up to the exit command. -/
theorem script_of_encode {source : Source} {input : String}
    (h : source.Shows (Utf8.encode input) none) :
    source.script.lines = Ledger.answered (Ledger.lines input) ∧
      source.script.outcome = .ok () := by
  obtain ⟨hlines, -⟩ := h.script_eq
  rw [texts_encode, heed_map_some] at hlines
  refine ⟨hlines, ?_⟩
  rcases h.outcome_script with ⟨hbreaks, -⟩ | ⟨-, houtcome⟩
  · rw [texts_encode] at hbreaks
    exact absurd hbreaks (not_breaks_map_some _)
  · exact houtcome

end Source

namespace Session

open Sink

variable {σ : Type} [Sink σ]

/-- A session on valid text, with streams that do not fail, refines the ledger. It ends well; its
output is that of the ledger which starts with the rows of the table; and its table then holds the
rows of that ledger. -/
theorem run_refines_ledger (metered : Metered σ none) (session : Session σ) (input : String)
    (htable : session.table.Reachable) (hsink : metered.Covers session.sink)
    (hinput : session.source.Shows (Utf8.encode input) none) :
    ∃ rows, session.table.rows = .ok rows ∧
      session.run.2 = .ok () ∧
      metered.written session.run.1.sink = metered.written session.sink ++
        Utf8.encode (Ledger.run rows (Ledger.lines input)).2 ∧
      session.run.1.table.rows = .ok (Ledger.run rows (Ledger.lines input)).1 := by
  obtain ⟨rows, hrows⟩ := htable.sound
  obtain ⟨more, hstores, hledger⟩ := hrows.run_ledger (Ledger.lines input)
  obtain ⟨hlines, houtcome⟩ := Source.script_of_encode hinput
  obtain ⟨last, hrun, hlast, -, hwritten, -⟩ :=
    run_of_within metered session ⟨rows, hrows⟩ hsink (within_none _)
  rw [hlines] at hlast hwritten
  refine ⟨rows.map Row.stored, hrows.rows_eq, ?_, ?_, ?_⟩
  · rw [hrun, houtcome]
  · rw [hrun, hledger]
    exact hwritten
  · rw [hrun, hledger, hlast]
    exact hstores.rows_eq

theorem run_refines_ledger_up_to_exit :
    (recorded (Utf8.encode "insert 1 ann a@b\n.help\n select \n.exit\nselect") none {}).run.2 =
      .ok () ∧
    (recorded (Utf8.encode "insert 1 ann a@b\n.help\n select \n.exit\nselect") none
        {}).run.1.sink.written.toList =
      Utf8.encode ("db > Executed.\ndb > Unrecognized command '.help'\n" ++
        "db > (1, ann, a@b)\nExecuted.\ndb > ") ∧
    (recorded (Utf8.encode "insert 1 ann a@b\n.help\n select \n.exit\nselect") none
        {}).run.1.table.rows =
      .ok [⟨1, "ann", "a@b"⟩] := by
  obtain ⟨rows, hrows, houtcome, hwritten, hlast⟩ :=
    run_refines_ledger (Recorder.metered {} (Limits.allowance_eq_none rfl) rfl)
      (recorded (Utf8.encode "insert 1 ann a@b\n.help\n select \n.exit\nselect") none {}) _
      .empty rfl (Source.shows_ofBytes _ none none)
  obtain rfl : [] = rows := Except.ok.inj (Table.stores_empty.rows_eq.symm.trans hrows)
  have hledger : Ledger.run [] (Ledger.lines "insert 1 ann a@b\n.help\n select \n.exit\nselect") =
      ([⟨1, "ann", "a@b"⟩], "db > Executed.\ndb > Unrecognized command '.help'\n" ++
        "db > (1, ann, a@b)\nExecuted.\ndb > ") := by
    decide +kernel
  rw [hledger] at hwritten hlast
  rw [Recorder.written_metered, Recorder.written_metered] at hwritten
  exact ⟨houtcome, hwritten, hlast⟩

end Session

end RowStore
