import RowStore.Proofs.Session.Reachable
import RowStore.Proofs.Table.Paging
import RowStore.Proofs.Table.Reading

/-! # How a table grows

Whatever leads to a table, calls, readings, lines or whole sessions, and however
the streams of these fail, the rows that were appended on the way decide all of
it: how many there are, which pages are allocated, and every byte on them.
-/

namespace RowStore

open Layout

namespace Table

/-! ## What a line appends -/

/-- The row that a line appends: the one that it was parsed to, if the table takes it. -/
def appended (table : Table) (line : Option String) : List Row :=
  match line.map Statement.parse with
  | some (.ok (.insert row)) => if (table.insert row).outcome.isOk then [row] else []
  | _ => []

/-- The rows that some lines append, one line after the other. -/
def appendedBy (table : Table) : List (Option String) → List Row
  | [] => []
  | line :: lines => table.appended line ++ (table.respond line).table.appendedBy lines

theorem table_ofStatement (table : Table) (line : String) (statement : Statement) :
    (Response.ofStatement table line statement).table = (statement.execute table).table := by
  rw [Response.ofStatement]
  split
  · rfl
  · split
    · rfl
    · rfl

theorem table_execute_select (table : Table) : (Statement.select.execute table).table = table := by
  rw [Statement.execute]
  split <;> rfl

/-- A line either is an insertion, which does what the call does, or leaves the table alone. -/
theorem respond_cases (table : Table) (line : Option String) :
    (∃ row, line.map Statement.parse = some (.ok (.insert row)) ∧ row.Fits ∧
      (table.respond line).table = (table.insert row).table) ∨
    (∀ row, line.map Statement.parse ≠ some (.ok (.insert row))) ∧
      (table.respond line).table = table := by
  cases line with
  | none => exact Or.inr ⟨nofun, rfl⟩
  | some line =>
      rw [Option.map_some]
      induction line using Response.lineCases with
      | exit =>
          right
          rw [Statement.parse_of_isCommand rfl, respond_exitCommand]
          exact ⟨nofun, rfl⟩
      | command line hline hcommand =>
          right
          rw [Statement.parse_of_isCommand hcommand, respond_of_isCommand hline hcommand]
          exact ⟨nofun, rfl⟩
      | rejected line reason hline hcommand hparse =>
          right
          rw [hparse, respond_of_error hline hcommand hparse]
          exact ⟨nofun, rfl⟩
      | parsed line statement hline hcommand hparse =>
          rw [hparse, respond_of_ok hline hcommand hparse, table_ofStatement]
          cases statement with
          | select => exact Or.inr ⟨nofun, table.table_execute_select⟩
          | insert row => exact Or.inl ⟨row, rfl, Statement.fits_of_parse hparse, rfl⟩

/-- A line leaves nothing but its row on the pages. -/
theorem Packs.respond {table : Table} {rows : List Row} (h : table.Packs rows)
    (line : Option String) : (table.respond line).table.Packs (rows ++ table.appended line) := by
  rcases table.respond_cases line with ⟨row, hline, hfits, htable⟩ | ⟨hline, htable⟩
  · rw [htable, appended, hline]
    simp only
    rcases Nat.lt_or_eq_of_le h.length_le with hroom | hfull
    · rw [(h.toStores.insert hroom hfits).1]
      exact h.insert hroom hfits
    · rw [h.insert_of_full hfull]
      rwa [if_neg (by simp [Except.isOk, Except.toBool]), List.append_nil]
  · have hnone : table.appended line = [] := by
      rw [appended]
      split
      next row hparse => exact absurd hparse (hline row)
      next => rfl
    rwa [htable, hnone, List.append_nil]

theorem Packs.afterAll {table : Table} {rows : List Row} (h : table.Packs rows)
    (lines : List (Option String)) :
    (table.afterAll lines).Packs (rows ++ table.appendedBy lines) := by
  induction lines generalizing table rows with
  | nil =>
      rw [appendedBy, List.append_nil]
      exact h
  | cons line lines ih =>
      have hrest := ih (h.respond line)
      rwa [List.append_assoc] at hrest

/-! ## Tables and the rows that led to them -/

/-- A table is reached, and these rows were appended on the way. An insertion either appends its row
or is refused; one that breaks a rule is not among the ways. The streams of lines and of sessions
are of any kind. -/
inductive Grown : Table → List Row → Prop
  | empty : Grown .empty []
  | insert {table : Table} {rows : List Row} (h : Grown table rows) {row : Row}
      (hinsert : (table.insert row).outcome = .ok ()) :
      Grown (table.insert row).table (rows ++ [row])
  | refuse {table : Table} {rows : List Row} (h : Grown table rows) {row : Row}
      {reason : Rejection} (hinsert : (table.insert row).outcome = .error (.rejected reason)) :
      Grown (table.insert row).table rows
  | scan {table : Table} {rows : List Row} (h : Grown table rows) {calls : List Cursor.Call}
      {answers : List Cursor.Answer} {last : Cursor}
      (hscan : (Cursor.start table).uses calls = .ok (answers, last)) : Grown last.table rows
  | step {σ : Type} [Sink σ] {table : Table} {rows : List Row} (h : Grown table rows)
      (line : Option String) (sink : σ) :
      Grown ((table.respond line).deliver sink).table (rows ++ table.appended line)
  | run {σ : Type} [Sink σ] {session : Session σ} {rows : List Row}
      (h : Grown session.table rows) :
      Grown session.run.1.table (rows ++ session.table.appendedBy session.heard)

theorem Grown.packs {table : Table} {rows : List Row} (h : Grown table rows) :
    table.Packs rows := by
  induction h with
  | empty => exact packs_empty
  | insert _ hinsert ih =>
      obtain ⟨hlen, hfits⟩ := outcome_insert_eq_ok_iff.mp hinsert
      exact ih.insert (ih.len_eq ▸ hlen) hfits
  | refuse _ hinsert ih =>
      rw [table_insert_of_rejected hinsert]
      exact ih
  | scan _ hscan ih =>
      obtain ⟨last, -, hlast⟩ := ih.toStores.uses_eq (Nat.zero_le _) _
      obtain ⟨-, rfl⟩ := Prod.mk.inj (Except.ok.inj (hlast.symm.trans hscan))
      exact ih
  | step _ line sink ih => exact ih.respond line
  | run _ ih =>
      rw [Session.table_run]
      exact ih.afterAll _

/-- A table is laid out by the rows that were appended to it. They fill the first pages in their
order, and no page is allocated on which none of them lies; the bytes in the place of each are those
that writing it gives; and all bytes in other places are zero. -/
theorem Grown.pages_hold_rows {table : Table} {rows : List Row} (h : Grown table rows) :
    table.len = rows.length ∧ table.len ≤ 1400 ∧
    (∀ index < 100, (table.page? index).isSome = true ↔ index < (table.len + 13) / 14) ∧
    table.allocatedPages = (table.len + 13) / 14 ∧
    (∀ index page, table.page? index = some page → page.bytes.toList.length = 4096) ∧
    (∀ (n : Nat) (hn : n < rows.length), ∃ page slot, table.page? (n / 14) = some page ∧
      (page.bytes.toList.drop (n % 14 * 291)).take 291 = slot.bytes.toList ∧
      ∀ old : Slot, old.store rows[n] = (slot, .ok ())) ∧
    (∀ index page, table.page? index = some page → ∀ place < 4096,
      (∀ n < table.len, ¬ (n / 14 = index ∧ n % 14 * 291 ≤ place ∧ place < n % 14 * 291 + 291)) →
      page.bytes[place]? = some 0) := by
  have hpacks := h.packs
  have hlen := hpacks.len_eq
  have hallocates := hpacks.allocates
  rw [← hlen] at hallocates
  refine ⟨hlen, ?_, ?_, hallocates.allocatedPages_eq, ?_, ?_, ?_⟩
  · rw [hlen]
    exact hpacks.length_le
  · intro index _
    exact hallocates index
  · intro index page _
    exact Vector.length_toList
  · intro n hn
    obtain ⟨page, hpage, hbytes⟩ := hpacks.exists_page hn
    refine ⟨page, Slot.ofRow rows[n], hpage, hbytes, ?_⟩
    intro old
    exact old.store_of_fits (hpacks.fits _ (List.getElem_mem hn))
  · rw [hlen]
    exact hpacks.zeros

/-- The first row takes the first slot of the first page, and the byte behind it is zero. -/
theorem pages_hold_rows_of_first_row :
    ∃ page, (empty.insert ⟨7, "ann", "a@b"⟩).table.page? 0 = some page ∧
      page.bytes.toList.take 291 = (Slot.ofRow ⟨7, "ann", "a@b"⟩).bytes.toList ∧
      page.bytes[291]? = some 0 ∧ (empty.insert ⟨7, "ann", "a@b"⟩).table.allocatedPages = 1 := by
  have hfits : Row.Fits ⟨7, "ann", "a@b"⟩ := ⟨by decide, by decide⟩
  have hinsert : (empty.insert ⟨7, "ann", "a@b"⟩).outcome = .ok () :=
    outcome_insert_eq_ok_iff.mpr ⟨by decide, hfits⟩
  obtain ⟨hlen, -, -, hpages, -, hrows, hzeros⟩ := (Grown.empty.insert hinsert).pages_hold_rows
  obtain ⟨page, slot, hpage, hbytes, hstore⟩ := hrows 0 (Nat.zero_lt_one)
  obtain rfl : slot = Slot.ofRow ⟨7, "ann", "a@b"⟩ :=
    congrArg Prod.fst ((hstore slot).symm.trans (slot.store_of_fits hfits))
  refine ⟨page, hpage, hbytes, hzeros 0 page hpage 291 (by decide) ?_, ?_⟩
  · rw [hlen]
    decide
  · rw [hpages, hlen]
    rfl

end Table

end RowStore
