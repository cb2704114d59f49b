import RowStore.Cursor

/-! # The contents of a table

A table stands for the list of the rows that were appended to it. The view is
taken slot by slot, so appending a row is a statement about one slot and a frame
for all others, wherever the page boundaries lie. Main statements: appending
adds the row at the end of the list, or is turned down when the list is full,
and reading all rows gives the list, each text cut before its first NUL.
-/

namespace RowStore

open Layout

namespace Table

/-- The bytes in the place of the row with this index, if its page is allocated. -/
def slot? (table : Table) (n : Nat) : Option Slot :=
  table.pages[n / rowsPerPage]?.join.bind fun page => (page.slot (n % rowsPerPage)).toOption

/-- The table was filled by appending these rows, in this order. -/
structure Stores (table : Table) (rows : List Row) : Prop where
  len_eq : table.len = rows.length
  length_le : rows.length ≤ maxRows
  fits : ∀ row ∈ rows, row.Fits
  slot?_eq : ∀ n (h : n < rows.length), table.slot? n = some (Slot.ofRow rows[n])

theorem stores_empty : Stores empty [] where
  len_eq := rfl
  length_le := Nat.zero_le _
  fits := by simp
  slot?_eq := by simp

/-! ## Appending a row -/

theorem insert_of_isFull {table : Table} (hfull : maxRows ≤ table.len) (row : Row) :
    table.insert row =
      { table, events := [.insertRefused table.len], outcome := .error (.rejected .tableFull) } := by
  rw [insert, if_pos (by simpa [isFull] using hfull)]

/-- The page of the next row. It is blank if no row lies on it yet. -/
def nextPage (table : Table) : Option Page :=
  table.pages[table.len / rowsPerPage]?.join

/-- The pages after a slot was put in the place of the next row. -/
def pagesWith (table : Table) (hlen : table.len < maxRows) (slot : Slot) :
    Vector (Option Page) maxPages :=
  table.pages.set (table.len / rowsPerPage)
    (some ((table.nextPage.getD .blank).put (table.len % rowsPerPage) slot))
    (div_rowsPerPage_lt hlen)

/-- While there is room, any row is written to the next place. What is counted, and what the call
ends with, depends on whether writing it broke a rule. -/
theorem insert_of_room {table : Table} (hlen : table.len < maxRows) (row : Row) :
    ∃ old : Slot, table.insert row =
      match old.store row with
      | (slot, .error breach) =>
          { table := { table with pages := table.pagesWith hlen slot }
            events :=
              if table.nextPage.isSome then [] else [.pageAllocated (table.len / rowsPerPage)]
            outcome := .error (.breached breach) }
      | (slot, .ok ()) =>
          { table := { len := table.len + 1, pages := table.pagesWith hlen slot }
            events :=
              if table.nextPage.isSome then [] else [.pageAllocated (table.len / rowsPerPage)]
            outcome := .ok () } := by
  have hindex := div_rowsPerPage_lt hlen
  have hnext : table.pages[table.len / rowsPerPage] = table.nextPage := by
    simp [nextPage, hindex]
  obtain ⟨old, hold⟩ := (table.nextPage.getD .blank).slot_eq_ok
    (Nat.mod_lt table.len (show 0 < rowsPerPage by decide))
  refine ⟨old, ?_⟩
  rw [insert, if_neg (by simpa [isFull] using hlen)]
  simp only [dif_pos hindex, hnext, hold, pagesWith]
  cases old.store row with
  | mk slot result => cases result <;> rfl

theorem insert_of_fits {table : Table} (hlen : table.len < maxRows) {row : Row}
    (hfits : row.Fits) :
    table.insert row =
      { table := { len := table.len + 1, pages := table.pagesWith hlen (.ofRow row) }
        events :=
          if table.nextPage.isSome then [] else [.pageAllocated (table.len / rowsPerPage)]
        outcome := .ok () } := by
  obtain ⟨old, hinsert⟩ := insert_of_room hlen row
  rwa [old.store_of_fits hfits] at hinsert

/-- A row that does not fit breaks a rule after some bytes were written. It is not counted. -/
theorem insert_of_not_fits {table : Table} (hlen : table.len < maxRows) {row : Row}
    (hfits : ¬ row.Fits) :
    ∃ slot breach, (table.insert row).table = { table with pages := table.pagesWith hlen slot } ∧
      (table.insert row).outcome = .error (.breached breach) := by
  obtain ⟨old, hinsert⟩ := insert_of_room hlen row
  obtain ⟨breach, hbreach⟩ := old.store_of_not_fits hfits
  cases hstore : old.store row with
  | mk slot result =>
      rw [hstore] at hinsert hbreach
      obtain rfl : result = .error breach := hbreach
      exact ⟨slot, breach, by rw [hinsert], by rw [hinsert]⟩

/-- A call appends its row, or the row breaks a rule, or there is no room for any row. -/
theorem insert_cases (table : Table) (row : Row) :
    (table.len < maxRows ∧ row.Fits ∧ (table.insert row).outcome = .ok () ∧
      (table.insert row).table.len = table.len + 1) ∨
    (table.len < maxRows ∧ ¬ row.Fits ∧
      (∃ breach, (table.insert row).outcome = .error (.breached breach)) ∧
      (table.insert row).table.len = table.len) ∨
    (maxRows ≤ table.len ∧ (table.insert row).outcome = .error (.rejected .tableFull) ∧
      (table.insert row).table = table) := by
  rcases Nat.lt_or_ge table.len maxRows with hlen | hlen
  · by_cases hfits : row.Fits
    · rw [insert_of_fits hlen hfits]
      exact Or.inl ⟨hlen, hfits, rfl, rfl⟩
    · obtain ⟨slot, breach, htable, hbreach⟩ := insert_of_not_fits hlen hfits
      exact Or.inr (Or.inl ⟨hlen, hfits, ⟨breach, hbreach⟩, congrArg (·.len) htable⟩)
  · rw [insert_of_isFull hlen]
    exact Or.inr (Or.inr ⟨hlen, rfl, rfl⟩)

theorem outcome_insert_eq_ok_iff {table : Table} {row : Row} :
    (table.insert row).outcome = .ok () ↔ table.len < maxRows ∧ row.Fits := by
  rcases table.insert_cases row with ⟨hlen, hfits, hok, -⟩ | ⟨-, hfits, ⟨breach, hbreach⟩, -⟩ |
    ⟨hfull, hrejected, -⟩
  · exact iff_of_true hok ⟨hlen, hfits⟩
  · exact iff_of_false (by simp [hbreach]) fun h => hfits h.2
  · exact iff_of_false (by simp [hrejected]) fun h => Nat.not_lt.mpr hfull h.1

/-- A row that is turned down leaves no trace. -/
theorem table_insert_of_rejected {table : Table} {row : Row} {reason : Rejection}
    (h : (table.insert row).outcome = .error (.rejected reason)) :
    (table.insert row).table = table := by
  rcases table.insert_cases row with ⟨-, -, hok, -⟩ | ⟨-, -, ⟨breach, hbreach⟩, -⟩ | ⟨-, -, htable⟩
  · rw [hok] at h
    cases h
  · rw [hbreach] at h
    cases h
  · exact htable

theorem slot?_set {table : Table} {n : Nat} (hn : n < maxRows) (page : Page) (len m : Nat) :
    slot? { len, pages := table.pages.set (n / rowsPerPage) (some page) (div_rowsPerPage_lt hn) } m =
      if m / rowsPerPage = n / rowsPerPage then (page.slot (m % rowsPerPage)).toOption
      else table.slot? m := by
  unfold slot?
  rw [Vector.getElem?_set]
  split
  next h => simp [h.symm]
  next h => rw [if_neg (Ne.symm h)]

theorem slot?_pagesWith_self {table : Table} (hlen : table.len < maxRows) (slot : Slot) (len : Nat) :
    slot? { len, pages := table.pagesWith hlen slot } table.len = some slot := by
  have hmod : table.len % rowsPerPage < rowsPerPage := Nat.mod_lt _ (by decide)
  rw [pagesWith, slot?_set hlen, if_pos rfl, Page.slot_put_self _ _ hmod]
  rfl

/-- Writing to the next place leaves the slots of all rows as they were. -/
theorem slot?_pagesWith_of_ne {table : Table} (hlen : table.len < maxRows) (slot : Slot) (len : Nat)
    {n : Nat} (hn : n ≠ table.len) {other : Slot} (hother : table.slot? n = some other) :
    slot? { len, pages := table.pagesWith hlen slot } n = some other := by
  rw [pagesWith, slot?_set hlen]
  split
  next hpage =>
    -- On the same page the remainders differ, since the quotients do not.
    have hmod : n % rowsPerPage ≠ table.len % rowsPerPage := by
      intro hmod
      apply hn
      rw [← Nat.div_add_mod n rowsPerPage, ← Nat.div_add_mod table.len rowsPerPage, hpage, hmod]
    rw [Page.slot_put_of_ne _ _ hmod]
    unfold slot? at hother
    rw [hpage] at hother
    obtain ⟨page, hnext, hother⟩ := Option.bind_eq_some_iff.mp hother
    rw [nextPage, hnext]
    exact hother
  next => exact hother

/-- While there is room, a row that fits is added at the end. -/
theorem Stores.insert {table : Table} {rows : List Row} (h : table.Stores rows)
    (hroom : rows.length < maxRows) {row : Row} (hfits : row.Fits) :
    (table.insert row).outcome = .ok () ∧ (table.insert row).table.Stores (rows ++ [row]) := by
  have hlen : table.len < maxRows := h.len_eq ▸ hroom
  have hinsert := insert_of_fits hlen hfits
  refine ⟨by rw [hinsert], ?_, ?_, ?_, ?_⟩
  · rw [hinsert, List.length_append, ← h.len_eq]
    rfl
  · rw [List.length_append]
    exact hroom
  · intro stored hstored
    rcases List.mem_append.mp hstored with hold | hnew
    · exact h.fits stored hold
    · exact List.mem_singleton.mp hnew ▸ hfits
  · intro n hn
    rw [List.length_append] at hn
    by_cases hlast : n = table.len
    · subst n
      have hlast : rows.length ≤ table.len := Nat.le_of_eq h.len_eq.symm
      rw [hinsert, slot?_pagesWith_self hlen, List.getElem_append_right hlast]
      simp
    · have hold : n < rows.length := by
        have hlength := h.len_eq
        simp only [List.length_singleton] at hn
        omega
      rw [hinsert, slot?_pagesWith_of_ne hlen _ _ hlast (h.slot?_eq n hold),
        List.getElem_append_left hold]

/-- A row that does not fit leaves the rows as they were. -/
theorem Stores.insert_of_not_fits {table : Table} {rows : List Row} (h : table.Stores rows)
    (hroom : rows.length < maxRows) {row : Row} (hfits : ¬ row.Fits) :
    (table.insert row).table.Stores rows := by
  have hlen : table.len < maxRows := h.len_eq ▸ hroom
  obtain ⟨slot, breach, hinsert, -⟩ := Table.insert_of_not_fits hlen hfits
  rw [hinsert]
  refine ⟨h.len_eq, h.length_le, h.fits, ?_⟩
  intro n hn
  have hne : n ≠ table.len := by
    rw [h.len_eq]
    exact Nat.ne_of_lt hn
  exact slot?_pagesWith_of_ne hlen _ _ hne (h.slot?_eq n hn)

/-- A full table turns every row down and stays as it was. -/
theorem Stores.insert_of_full {table : Table} {rows : List Row} (h : table.Stores rows)
    (hfull : rows.length = maxRows) (row : Row) :
    table.insert row =
      { table, events := [.insertRefused table.len], outcome := .error (.rejected .tableFull) } :=
  insert_of_isFull (by rw [h.len_eq]; exact Nat.le_of_eq hfull.symm) row

/-! ## Reading rows -/

theorem Stores.row?_eq {table : Table} {rows : List Row} (h : table.Stores rows) {n : Nat}
    (hn : n < rows.length) : table.row? n = .ok (some rows[n].stored) := by
  have hindex : n / rowsPerPage < maxPages :=
    div_rowsPerPage_lt (Nat.lt_of_lt_of_le hn h.length_le)
  have hfits : rows[n].Fits := h.fits _ (List.getElem_mem hn)
  have hslot := h.slot?_eq n hn
  unfold slot? at hslot
  obtain ⟨page, hpage, hslot⟩ := Option.bind_eq_some_iff.mp hslot
  have hpage : table.pages[n / rowsPerPage] = some page := by simpa [hindex] using hpage
  have hread : page.slot (n % rowsPerPage) = .ok (.ofRow rows[n]) := by
    cases hread : page.slot (n % rowsPerPage) with
    | error breach => rw [hread] at hslot; cases hslot
    | ok slot => rw [hread] at hslot; exact congrArg _ (Option.some.inj hslot)
  rw [row?, if_neg (by rw [h.len_eq]; omega)]
  simp only [dif_pos hindex, hpage, hread, Except.map, Slot.row_ofRow hfits]

theorem Stores.rows_from {table : Table} {rows : List Row} (h : table.Stores rows) {n : Nat}
    (hn : n ≤ rows.length) :
    Cursor.rows { table, position := n } = .ok ((rows.drop n).map Row.stored) := by
  -- The induction is on the number of rows that are still ahead of the cursor.
  induction hleft : rows.length - n generalizing n with
  | zero =>
      have hend : n = rows.length := by omega
      have hnext : Cursor.next { table, position := n } = .ok (none, { table, position := n }) := by
        have hlen : table.len ≤ n := Nat.le_of_eq (h.len_eq.trans hend.symm)
        rw [Cursor.next, Cursor.value, row?_of_len_le hlen]
      rw [Cursor.rows_of_next_none hnext, List.drop_of_length_le (by omega)]
      rfl
  | succ left ih =>
      have hlt : n < rows.length := by omega
      have hahead : ¬ table.len ≤ n := by rw [h.len_eq]; omega
      have hnext : Cursor.next { table, position := n } =
          .ok (some rows[n].stored, { table, position := n + 1 }) := by
        rw [Cursor.next, Cursor.value, h.row?_eq hlt]
        simp [Cursor.advance, Cursor.atEnd, hahead]
      rw [Cursor.rows_of_next_some hnext, ih hlt (by omega), List.drop_eq_getElem_cons hlt]
      rfl

/-- Reading all rows gives what was appended. -/
theorem Stores.rows_eq {table : Table} {rows : List Row} (h : table.Stores rows) :
    table.rows = .ok (rows.map Row.stored) :=
  h.rows_from (Nat.zero_le _)

end Table

end RowStore
