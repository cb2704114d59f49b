import RowStore.Proofs.Session.Composition
import RowStore.Proofs.Session.Exchanges
import RowStore.Proofs.Session.Origin

/-! # Reloading a table

The rows of a table may be written down as the lines that state them, and a
session on these lines builds a table again. It gives back the same rows, unless
an empty text is among them: the line of such a row has a word too few, so it is
turned down and its row is left out.
-/

namespace RowStore

open Text Sink

namespace Row

/-- The lines that state some rows. -/
def dump (rows : List Row) : String :=
  String.join (rows.map fun row => row.insertion ++ "\n")

theorem Plain.newline_not_mem_insertion {row : Row} (h : row.Plain) :
    '\n' ∉ row.insertion.toList := by
  have hblank : Blank.isBlank '\n' = true := by decide
  have hid := (Blank.solid_repr row.id.toNat).not_mem hblank
  have husername := h.username.not_mem hblank
  have hemail := h.email.not_mem hblank
  simp only [insertion, String.toList_append, List.mem_append, hid, husername, hemail, or_false]
  decide

/-- Rows that a line can state are written down one to a line. -/
theorem lines_dump {rows : List Row} (h : ∀ row ∈ rows, row.Plain) :
    Ledger.lines (dump rows) = rows.map insertion := by
  induction rows with
  | nil => rfl
  | cons row rows ih =>
      have hline := (h row List.mem_cons_self).newline_not_mem_insertion
      have hdump : (dump (row :: rows)).toList =
          row.insertion.toList ++ '\n' :: (dump rows).toList := by
        rw [dump, List.map_cons, String.join_cons, String.toList_append, String.toList_append,
          List.append_assoc]
        rfl
      rw [Ledger.lines_of_newline hdump hline, String.ofList_toList, String.ofList_toList,
        ih fun other hother => h other (List.mem_cons_of_mem _ hother), List.map_cons]

theorem map_stored_of_nulFree {rows : List Row} (h : ∀ row ∈ rows, row.NulFree) :
    rows.map stored = rows := by
  calc rows.map stored
      = rows.map fun row => row :=
        List.map_congr_left fun row hrow => stored_eq_self_iff.mpr (h row hrow)
    _ = rows := List.map_id' rows

theorem reply_eq_executed_iff {row : Row} : row.reply = Response.executed ↔ row.Complete := by
  rw [reply]
  split
  next hcomplete => exact iff_of_true rfl hcomplete
  next hcomplete => exact iff_of_false (by decide) hcomplete

end Row

namespace Table

/-- The lines that state some rows append the rows without an empty text. -/
theorem Stores.reload {table : Table} {held rows : List Row} (h : table.Stores held)
    (hplain : ∀ row ∈ rows, row.Plain) (hroom : held.length + rows.length ≤ Layout.maxRows) :
    (table.after (rows.map fun row => Blank.trim row.insertion)).Stores
        (held ++ rows.filter (·.Complete)) ∧
      (table.exchanges (rows.map fun row => Blank.trim row.insertion)).map Exchange.answer =
        rows.map Row.reply := by
  induction rows generalizing table held with
  | nil =>
      rw [List.filter_nil, List.append_nil]
      exact ⟨h, rfl⟩
  | cons row rows ih =>
      -- A line appends one row or none, so there is room for the lines that are left.
      rw [List.length_cons] at hroom
      obtain ⟨hstores, hreply⟩ := h.respond_insertion (by omega)
        (hplain row List.mem_cons_self) (Blank.words_trim row.insertion)
      have hone : ([row].filter (·.Complete)).length ≤ 1 := List.length_filter_le _ [row]
      obtain ⟨hafter, hanswers⟩ :=
        ih hstores (fun other hother => hplain other (List.mem_cons_of_mem _ hother))
          (by rw [List.length_append]; omega)
      rw [List.append_assoc, ← List.filter_append, List.singleton_append] at hafter
      rw [List.map_cons, after_cons, exchanges, List.map_cons, List.map_cons, hreply, hanswers]
      exact ⟨hafter, rfl⟩

/-- The rows of a table may be written down as lines. A session on them, whose output does not fail,
leads to the rows without an empty text. So all rows are there again, and all lines have been
executed, just if no text is empty. -/
theorem Reachable.reload_restores_rows {table : Table} (h : table.Reachable) :
    ∃ rows, table.rows = .ok rows ∧ Ledger.lines (Row.dump rows) = rows.map Row.insertion ∧
      ∀ {σ : Type} [Sink σ] (metered : Metered σ none) (sink : σ) (source : Source)
        (input : String), metered.Covers sink → source.Shows (Utf8.encode input) none →
        Ledger.lines input = rows.map Row.insertion →
        let reload := Session.run { table := .empty, source, sink }
        let exchanges := Table.exchanges .empty (rows.map fun row => Blank.trim row.insertion)
        reload.2 = .ok () ∧
        metered.written reload.1.sink =
          metered.written sink ++ Utf8.encode (Exchange.shown exchanges) ∧
        exchanges.map Exchange.answer = rows.map Row.reply ∧
        reload.1.table.rows = .ok (rows.filter (·.Complete)) ∧
        (reload.1.table.rows = .ok rows ∧
            (∀ exchange ∈ exchanges, exchange.answer = "Executed.\n") ↔
          ∀ row ∈ rows, row.username ≠ "" ∧ row.email ≠ "") := by
  obtain ⟨rows, hrows, -, hlength, hstorable⟩ := h.exists_storable
  have hplain : ∀ row ∈ rows, row.Plain := fun row hrow => (hstorable row hrow).toPlain
  refine ⟨rows, hrows, Row.lines_dump hplain, ?_⟩
  intro σ _ metered sink source input hsink hinput hlines reload exchanges
  obtain ⟨hstores, hanswers⟩ := stores_empty.reload hplain (by rwa [List.length_nil, Nat.zero_add])
  have hanswered : Ledger.answered (Ledger.lines input) =
      rows.map fun row => Blank.trim row.insertion := by
    rw [Ledger.answered_of_ne_exitCommand, hlines, List.map_map]
    · rfl
    · intro line hline
      rw [hlines] at hline
      obtain ⟨row, hrow, rfl⟩ := List.mem_map.mp hline
      exact (hplain row hrow).ne_exitCommand (Blank.words_trim row.insertion)
  obtain ⟨-, houtcome, htable, hwritten⟩ :=
    Session.run_of_text metered { table := .empty, source, sink } ⟨[], stores_empty⟩ hsink hinput
  rw [hanswered] at htable hwritten
  have hnul : ∀ row ∈ rows.filter (·.Complete), row.NulFree := fun row hrow =>
    (hstorable row (List.mem_filter.mp hrow).1).nulFree
  have hreloaded : reload.1.table.rows = .ok (rows.filter (·.Complete)) := by
    rw [htable, hstores.rows_eq, List.nil_append, Row.map_stored_of_nulFree hnul]
  refine ⟨houtcome, hwritten, hanswers, hreloaded, ?_⟩
  constructor
  · rintro ⟨-, hexecuted⟩ row hrow
    have hreply : row.reply ∈ exchanges.map Exchange.answer := by
      rw [hanswers]
      exact List.mem_map_of_mem hrow
    obtain ⟨exchange, hexchange, hanswer⟩ := List.mem_map.mp hreply
    exact Row.reply_eq_executed_iff.mp (hanswer.symm.trans (hexecuted exchange hexchange))
  · intro hcomplete
    refine ⟨?_, ?_⟩
    · rw [hreloaded, List.filter_eq_self.mpr]
      exact fun row hrow => decide_eq_true (hcomplete row hrow)
    · intro exchange hexchange
      have hanswer : exchange.answer ∈ rows.map Row.reply := by
        rw [← hanswers]
        exact List.mem_map_of_mem hexchange
      obtain ⟨row, hrow, hreply⟩ := List.mem_map.mp hanswer
      exact hreply.symm.trans (Row.reply_eq_executed_iff.mpr (hcomplete row hrow))

/-- A username that begins with a NUL is read back as an empty text. It is not stated by its line,
so the row is lost. -/
theorem reload_restores_rows_but_empty_username :
    (empty.respond (some "insert 1 \x00ann a@b")).table.rows = .ok [⟨1, "", "a@b"⟩] ∧
      (Session.recorded (Utf8.encode "insert 1  a@b\n") none {}).run.1.table.rows = .ok [] ∧
      (empty.exchanges ["insert 1  a@b"]).map Exchange.answer =
        ["Syntax error. Could not parse statement.\n"] := by
  have hanswer : Ledger.answer [] "insert 1 \x00ann a@b" =
      some ([⟨1, "", "a@b"⟩], "Executed.\n") := by
    decide +kernel
  have hlost := (stores_empty.respond_of_answer hanswer).1
  obtain ⟨rows, hrows, -, hreload⟩ :=
    (Reachable.step .empty (some "insert 1 \x00ann a@b") ({} : Recorder)).reload_restores_rows
  obtain rfl : [⟨1, "", "a@b"⟩] = rows := Except.ok.inj (hlost.symm.trans hrows)
  obtain ⟨-, -, hanswers, hreloaded, -⟩ :=
    hreload (Recorder.metered {} (Limits.allowance_eq_none rfl) rfl) {} _ "insert 1  a@b\n" rfl
      (Source.shows_ofBytes _ none none) (by decide +kernel)
  have hline : Blank.trim (Row.insertion ⟨1, "", "a@b"⟩) = "insert 1  a@b" := by decide +kernel
  rw [List.map_singleton, hline] at hanswers
  exact ⟨hlost, hreloaded, hanswers⟩

end Table

end RowStore
