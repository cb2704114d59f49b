import RowStore.Proofs.Session.Exchanges
import RowStore.Proofs.Session.Growth

/-! # Lines that store nothing

A line that leaves the number of rows as it is leaves no trace at all: every
byte of every page stays as it was. So such lines can be taken out of an input
without any effect on the answers to the other lines, nor on the table at the
end. The two sessions are compared exchange by exchange, since taking lines out
moves all that comes behind them.
-/

namespace RowStore

open Text

namespace Ledger

/-! ## Taking lines out of a text -/

/-- The items whose numbers are not dropped, if the first one has the number `start`. -/
def kept {α : Type} (dropped : Nat → Bool) (start : Nat) (items : List α) : List α :=
  ((items.zipIdx start).filter fun item => !dropped item.2).map Prod.fst

/-- The characters that are not in a dropped line, if the first line has the number `start`. A
newline belongs to the line that it ends. -/
def keptChars (dropped : Nat → Bool) (start : Nat) : List Char → List Char
  | [] => []
  | c :: cs =>
      let rest := keptChars dropped (if c = '\n' then start + 1 else start) cs
      if dropped start then rest else c :: rest

/-- The text without the dropped lines and their newlines. -/
def withoutLines (dropped : Nat → Bool) (text : String) : String :=
  String.ofList (keptChars dropped 0 text.toList)

variable {dropped : Nat → Bool} {start : Nat}

theorem kept_cons {α : Type} (item : α) (items : List α) :
    kept dropped start (item :: items) =
      if dropped start then kept dropped (start + 1) items
      else item :: kept dropped (start + 1) items := by
  rw [kept, List.zipIdx_cons, List.filter_cons, kept]
  cases dropped start <;> rfl

theorem map_kept {α β : Type} (f : α → β) (items : List α) :
    (kept dropped start items).map f = kept dropped start (items.map f) := by
  induction items generalizing start with
  | nil => rfl
  | cons item items ih =>
      rw [List.map_cons, kept_cons, kept_cons, ← ih, apply_ite (List.map f), List.map_cons]

theorem keptChars_of_not_mem {cs : List Char} (h : '\n' ∉ cs) :
    keptChars dropped start cs = if dropped start then [] else cs := by
  induction cs with
  | nil => rw [keptChars, ite_self]
  | cons c cs ih =>
      obtain ⟨hc, hcs⟩ := List.ne_and_not_mem_of_not_mem_cons h
      rw [keptChars, if_neg hc.symm, ih hcs]
      cases dropped start <;> rfl

theorem keptChars_of_newline {before : List Char} (after : List Char) (h : '\n' ∉ before) :
    keptChars dropped start (before ++ '\n' :: after) =
      if dropped start then keptChars dropped (start + 1) after
      else before ++ '\n' :: keptChars dropped (start + 1) after := by
  induction before with
  | nil => simp only [List.nil_append, keptChars, if_true]
  | cons c before ih =>
      obtain ⟨hc, hbefore⟩ := List.ne_and_not_mem_of_not_mem_cons h
      rw [List.cons_append, keptChars, if_neg hc.symm, ih hbefore]
      cases dropped start <;> rfl

/-- The lines of what is left of a text are its other lines. -/
theorem pieces_keptChars (cs : List Char) :
    pieces '\n' (keptChars dropped start cs) = kept dropped start (pieces '\n' cs) := by
  induction cs using pieceInduction '\n' generalizing start with
  | nil =>
      rw [keptChars, pieces_nil]
      rfl
  | tail last hlast hne =>
      rw [keptChars_of_not_mem hlast, pieces_of_not_mem hlast hne, kept_cons]
      split
      · exact pieces_nil _
      · exact pieces_of_not_mem hlast hne
  | piece first rest hfirst ih =>
      rw [keptChars_of_newline rest hfirst, pieces_append_cons hfirst, kept_cons, ← ih]
      split
      · rfl
      · exact pieces_append_cons hfirst _

/-- Items that are dropped before the first one that fails a test do not change which one it is. -/
theorem takeWhile_kept {α : Type} {test : α → Bool} {items : List α}
    (h : ∀ place, dropped (start + place) = true → place < (items.takeWhile test).length) :
    (kept dropped start items).takeWhile test = kept dropped start (items.takeWhile test) := by
  induction items generalizing start with
  | nil => rfl
  | cons item items ih =>
      cases htest : test item with
      | true =>
          rw [List.takeWhile_cons_of_pos htest] at h ⊢
          rw [kept_cons, kept_cons, ← ih]
          · rw [apply_ite (List.takeWhile test), List.takeWhile_cons_of_pos htest]
          · intro place hplace
            apply Nat.lt_of_succ_lt_succ
            apply h (place + 1)
            rwa [Nat.add_comm place, ← Nat.add_assoc]
      | false =>
          have hnot : ¬ test item = true := by simp [htest]
          rw [List.takeWhile_cons_of_neg hnot] at h ⊢
          -- Nothing may be dropped here, so the item that fails the test comes first.
          have hstart : ¬ dropped start = true := fun hstart => Nat.not_lt_zero _ (h 0 hstart)
          rw [kept_cons, if_neg hstart, List.takeWhile_cons_of_neg hnot]
          rfl

theorem answered_withoutLines {text : String}
    (h : ∀ place, dropped place = true → place < (answered (lines text)).length) :
    answered (lines (withoutLines dropped text)) = kept dropped 0 (answered (lines text)) := by
  rw [withoutLines, lines_eq, String.toList_ofList, pieces_keptChars, answered, map_kept, map_kept,
    takeWhile_kept]
  · rfl
  · intro place hplace
    rw [Nat.zero_add] at hplace
    exact h place hplace

end Ledger

namespace Table

/-! ## Lines without an effect -/

/-- A line stores nothing, if as many rows are there after it as before. -/
def IdleAt (table : Table) (lines : List String) (place : Nat) : Prop :=
  (table.after (lines.take (place + 1))).len = (table.after (lines.take place)).len

/-- A line that does not add to the number of rows changes no byte of any page. -/
theorem table_respond_of_len_eq {table : Table} {line : Option String}
    (h : (table.respond line).table.len = table.len) : (table.respond line).table = table := by
  rcases table.respond_cases line with ⟨row, -, hfits, htable⟩ | ⟨-, htable⟩
  · rw [htable] at h ⊢
    -- A row that fits is appended unless the table is full.
    rcases table.insert_cases row with ⟨-, -, -, hlen⟩ | ⟨-, hnot, -⟩ | ⟨-, -, hsame⟩
    · exact absurd (hlen.symm.trans h) (Nat.succ_ne_self _)
    · exact absurd hfits hnot
    · exact hsame
  · exact htable

theorem len_respond_eq_iff {table : Table} {line : String} :
    (table.respond (some line)).table.len = table.len ↔
      ∀ row, Statement.parse line = .ok (.insert row) → table.isFull = true := by
  rcases table.respond_cases (some line) with ⟨row, hline, hfits, htable⟩ | ⟨hline, htable⟩
  · have hparse : Statement.parse line = .ok (.insert row) := Option.some.inj hline
    rw [htable]
    rcases table.insert_cases row with ⟨hroom, -, -, hlen⟩ | ⟨-, hnot, -⟩ | ⟨hfull, -, hsame⟩
    · refine iff_of_false (hlen ▸ Nat.succ_ne_self _) ?_
      intro hfull
      exact Nat.not_le.mpr hroom (of_decide_eq_true (hfull row hparse))
    · exact absurd hfits hnot
    · exact iff_of_true (congrArg Table.len hsame) fun _ _ => decide_eq_true hfull
  · apply iff_of_true (congrArg Table.len htable)
    intro row hparse
    exact absurd (congrArg some hparse) (hline row)

/-- The lines that store nothing are those that are no accepted insertions, and the insertions that
find the table full. -/
theorem idleAt_iff {table : Table} {lines : List String} {place : Nat} {line : String}
    (hline : lines[place]? = some line) :
    table.IdleAt lines place ↔ ∀ row, Statement.parse line = .ok (.insert row) →
      (table.after (lines.take place)).isFull = true := by
  rw [IdleAt, List.take_add_one, hline, after_append]
  exact len_respond_eq_iff

/-- Lines that store nothing can be left out of any others. -/
theorem exchanges_kept {table : Table} {lines : List String} {dropped : Nat → Bool} {start : Nat}
    (h : ∀ place < lines.length, dropped (start + place) = true → table.IdleAt lines place) :
    table.exchanges (Ledger.kept dropped start lines) =
        Ledger.kept dropped start (table.exchanges lines) ∧
      table.after (Ledger.kept dropped start lines) = table.after lines := by
  induction lines generalizing table start with
  | nil => exact ⟨rfl, rfl⟩
  | cons line lines ih =>
      have hrest : ∀ place < lines.length, dropped (start + 1 + place) = true →
          (table.respond (some line)).table.IdleAt lines place := by
        intro place hplace hdropped
        apply h (place + 1) (Nat.succ_lt_succ hplace)
        rwa [Nat.add_comm place, ← Nat.add_assoc]
      obtain ⟨hexchanges, hafter⟩ := ih hrest
      rw [Ledger.kept_cons, exchanges, Ledger.kept_cons]
      split
      next hdropped =>
        -- The table does not notice the line, so the others find it as they did before.
        have hidle : (table.respond (some line)).table = table :=
          table_respond_of_len_eq (h 0 (Nat.zero_lt_succ _) hdropped)
        rw [hidle] at hexchanges hafter
        rw [hidle]
        refine ⟨hexchanges, hafter.trans ?_⟩
        exact congrArg (fun table => table.after lines) hidle.symm
      next => exact ⟨congrArg (_ :: ·) hexchanges, hafter⟩

end Table

namespace Session

open Sink

variable {σ : Type} [Sink σ]

/-- Any lines that a session answers and that store nothing can be taken out of its input. The
other lines get the same answers, and the session comes to the same result and the same table. -/
theorem run_without_idle_lines (metered : Metered σ none) (table : Table) (input : String)
    (dropped : Nat → Bool) (source thinned : Source) (sink sink' : σ) (htable : table.Reachable)
    (hsource : source.Shows (Utf8.encode input) none)
    (hthinned : thinned.Shows (Utf8.encode (Ledger.withoutLines dropped input)) none)
    (hsink : metered.Covers sink) (hsink' : metered.Covers sink')
    (hidle : ∀ place, dropped place = true →
      place < (Ledger.answered (Ledger.lines input)).length ∧
        table.IdleAt (Ledger.answered (Ledger.lines input)) place) :
    let whole := run { table, source, sink }
    let rest := run { table, source := thinned, sink := sink' }
    let exchanges := table.exchanges (Ledger.answered (Ledger.lines input))
    let others := Ledger.answered (Ledger.lines (Ledger.withoutLines dropped input))
    whole.2 = .ok () ∧ rest.2 = whole.2 ∧ rest.1.table = whole.1.table ∧
      table.exchanges others = Ledger.kept dropped 0 exchanges ∧
      metered.written whole.1.sink =
        metered.written sink ++ Utf8.encode (Exchange.shown exchanges) ∧
      metered.written rest.1.sink =
        metered.written sink' ++ Utf8.encode (Exchange.shown (Ledger.kept dropped 0 exchanges)) := by
  intro whole rest exchanges others
  obtain ⟨-, hwhole, hwholeTable, hwholeWritten⟩ :=
    run_of_text metered { table, source, sink } htable.sound hsink hsource
  obtain ⟨-, hrest, hrestTable, hrestWritten⟩ :=
    run_of_text metered { table, source := thinned, sink := sink' } htable.sound hsink' hthinned
  have hothers : others = Ledger.kept dropped 0 (Ledger.answered (Ledger.lines input)) :=
    Ledger.answered_withoutLines fun place hplace => (hidle place hplace).1
  have hplaces : ∀ place < (Ledger.answered (Ledger.lines input)).length,
      dropped (0 + place) = true → table.IdleAt (Ledger.answered (Ledger.lines input)) place := by
    intro place _ hplace
    rw [Nat.zero_add] at hplace
    exact (hidle place hplace).2
  obtain ⟨hexchanges, hafter⟩ := Table.exchanges_kept hplaces
  rw [← hothers] at hexchanges hafter
  refine ⟨hwhole, hrest.trans hwhole.symm, ?_, hexchanges, hwholeWritten, ?_⟩
  · exact hrestTable.trans (hafter.trans hwholeTable.symm)
  · rw [← hexchanges]
    exact hrestWritten

/-- A listing and an unknown command in the middle of an input are taken out of it. -/
theorem run_without_idle_lines_of_listing :
    Ledger.withoutLines (fun place => place == 1 || place == 2)
        "insert 1 ann a@b\nselect\n.help\nselect\n.exit" = "insert 1 ann a@b\nselect\n.exit" ∧
    (recorded (Utf8.encode "insert 1 ann a@b\nselect\n.exit") none {}).run.1.table =
      (recorded (Utf8.encode "insert 1 ann a@b\nselect\n.help\nselect\n.exit") none
        {}).run.1.table ∧
    (recorded (Utf8.encode "insert 1 ann a@b\nselect\n.exit") none {}).run.1.sink.written.toList =
      Utf8.encode "db > Executed.\ndb > (1, ann, a@b)\nExecuted.\ndb > " := by
  have htext : Ledger.withoutLines (fun place => place == 1 || place == 2)
      "insert 1 ann a@b\nselect\n.help\nselect\n.exit" = "insert 1 ann a@b\nselect\n.exit" := by
    decide +kernel
  have hanswered : Ledger.answered (Ledger.lines
      "insert 1 ann a@b\nselect\n.help\nselect\n.exit") =
        ["insert 1 ann a@b", "select", ".help", "select"] := by decide +kernel
  have hwords : Blank.words "select" = ["select"] := by decide +kernel
  have hselect : Statement.parse "select" = .ok .select := Statement.parse_of_select hwords
  have hidle : ∀ place, (place == 1 || place == 2) = true →
      place < ["insert 1 ann a@b", "select", ".help", "select"].length ∧
        Table.empty.IdleAt ["insert 1 ann a@b", "select", ".help", "select"] place := by
    intro place hplace
    rcases (by simpa using hplace : place = 1 ∨ place = 2) with rfl | rfl
    · refine ⟨by decide, (Table.idleAt_iff rfl).mpr ?_⟩
      rw [hselect]
      simp
    · refine ⟨by decide, (Table.idleAt_iff rfl).mpr ?_⟩
      rw [Statement.parse_of_isCommand (by decide)]
      simp
  have hrun : Ledger.run [] (Ledger.lines "insert 1 ann a@b\nselect\n.exit") =
      ([⟨1, "ann", "a@b"⟩], "db > Executed.\ndb > (1, ann, a@b)\nExecuted.\ndb > ") := by
    decide +kernel
  have hthinned : Source.Shows (.ofBytes (Utf8.encode "insert 1 ann a@b\nselect\n.exit") none none)
      (Utf8.encode (Ledger.withoutLines (fun place => place == 1 || place == 2)
        "insert 1 ann a@b\nselect\n.help\nselect\n.exit")) none := by
    rw [htext]
    exact Source.shows_ofBytes _ none none
  rw [← hanswered] at hidle
  obtain ⟨-, -, htable, hexchanges, -, hwritten⟩ :=
    run_without_idle_lines (Recorder.metered {} (Limits.allowance_eq_none rfl) rfl) .empty _ _ _ _
      {} {} .empty (Source.shows_ofBytes _ none none) hthinned rfl rfl hidle
  rw [← hexchanges, htext, Table.stores_empty.shown_exchanges_of_ledger hrun] at hwritten
  rw [Recorder.written_metered, Recorder.written_metered] at hwritten
  exact ⟨htext, htable, hwritten⟩

end Session

end RowStore
