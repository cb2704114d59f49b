import RowStore.Proofs.Table.Contents

/-! # How rows lie on pages

The pages of a table are allocated from the first one on, as many as its rows
need. On them is nothing but the bytes of the rows, each in its own slot, and
zeros. A row that is appended goes to the first slot that is free and allocates
its page if it is the first one there; a row that breaks a rule allocates the
page too, and may leave bytes in that slot.
-/

namespace RowStore

open Layout

namespace Page

/-- A slot is the bytes in its place. -/
theorem toList_of_slot {page : Page} {index : Nat} {slot : Slot} (h : page.slot index = .ok slot) :
    (page.bytes.toList.drop (index * rowSize)).take rowSize = slot.bytes.toList := by
  rw [Page.slot] at h
  split at h
  next =>
    obtain rfl := Except.ok.inj h
    change _ =
      (page.bytes.toArray.extract (index * rowSize) (index * rowSize + rowSize)).toList
    rw [Array.toList_extract, List.extract_eq_take_drop, Nat.add_sub_cancel_left]
    rfl
  next => cases h

end Page

namespace Table

/-! ## Allocated pages -/

/-- The page with this index, if it is allocated. -/
def page? (table : Table) (index : Nat) : Option Page :=
  table.pages[index]?.join

/-- So many pages are allocated, and they are the first ones. -/
def Allocates (table : Table) (count : Nat) : Prop :=
  ∀ index, (table.page? index).isSome = true ↔ index < count

/-- The number of pages that so many rows need. -/
def pagesFor (count : Nat) : Nat :=
  (count + 13) / 14

theorem pagesFor_succ (count : Nat) : pagesFor (count + 1) = count / rowsPerPage + 1 := by
  rw [pagesFor, rowsPerPage_eq]
  omega

theorem pagesFor_le_succ (count : Nat) : pagesFor count ≤ count / rowsPerPage + 1 := by
  rw [pagesFor, rowsPerPage_eq]
  omega

theorem allocates_empty : Allocates empty 0 := by
  intro index
  simp [page?, empty, Vector.getElem?_replicate, apply_ite Option.join]

theorem countP_isSome_eq {α : Type} {cells : List (Option α)} {count : Nat}
    (h : ∀ index, (cells[index]?.join).isSome = true ↔ index < count) :
    cells.countP Option.isSome = count := by
  induction cells generalizing count with
  | nil =>
      have hnone := h 0
      simp at hnone
      exact hnone.symm
  | cons cell cells ih =>
      have hfirst := h 0
      have hrest (index : Nat) : (cells[index]?.join).isSome = true ↔ index + 1 < count := by
        rw [← h (index + 1), List.getElem?_cons_succ]
      cases count with
      | zero =>
          have hnone : ¬ cell.isSome = true := by simpa using hfirst
          rw [List.countP_cons_of_neg hnone, ih]
          intro index
          simp [hrest]
      | succ count =>
          have hsome : cell.isSome = true := by simpa using hfirst
          rw [List.countP_cons_of_pos hsome, ih]
          intro index
          rw [hrest, Nat.succ_lt_succ_iff]

theorem Allocates.allocatedPages_eq {table : Table} {count : Nat} (h : table.Allocates count) :
    table.allocatedPages = count := by
  apply countP_isSome_eq
  intro index
  rw [← h index, page?, Vector.getElem?_toList]

theorem Allocates.le_maxPages {table : Table} {count : Nat} (h : table.Allocates count) :
    count ≤ maxPages := by
  apply Nat.le_of_not_lt
  intro hlt
  have hsome := (h maxPages).mpr hlt
  simp [page?] at hsome

theorem page?_pagesWith {table : Table} (hlen : table.len < maxRows) (slot : Slot)
    (len index : Nat) :
    page? { len, pages := table.pagesWith hlen slot } index =
      if index = table.len / rowsPerPage then
        some ((table.nextPage.getD .blank).put (table.len % rowsPerPage) slot)
      else table.page? index := by
  have hindex := div_rowsPerPage_lt hlen
  unfold page? pagesWith
  rw [Vector.getElem?_set]
  split
  next h => simp [h.symm]
  next h => rw [if_neg (Ne.symm h)]

/-- Whatever is put in the next place, the pages are allocated up to the one it lies on. -/
theorem Allocates.pagesWith {table : Table} {count : Nat} (h : table.Allocates count)
    (hlen : table.len < maxRows) (slot : Slot) (len : Nat)
    (hlow : pagesFor table.len ≤ count) (hhigh : count ≤ table.len / rowsPerPage + 1) :
    Allocates { len, pages := table.pagesWith hlen slot } (table.len / rowsPerPage + 1) := by
  intro index
  rw [page?_pagesWith]
  by_cases hindex : index = table.len / rowsPerPage
  · rw [if_pos hindex, hindex]
    simp
  · rw [if_neg hindex, h index]
    simp only [pagesFor, rowsPerPage_eq] at *
    omega

/-- Whatever comes of a call, the pages are allocated up to the one that the row was due on. -/
theorem Allocates.insert {table : Table} {count : Nat} (h : table.Allocates count)
    (hlen : table.len < maxRows) (hlow : pagesFor table.len ≤ count)
    (hhigh : count ≤ table.len / rowsPerPage + 1) (row : Row) :
    (table.insert row).table.Allocates (table.len / rowsPerPage + 1) := by
  by_cases hfits : row.Fits
  · rw [insert_of_fits hlen hfits]
    exact h.pagesWith hlen _ _ hlow hhigh
  · obtain ⟨slot, breach, hinsert, -⟩ := insert_of_not_fits hlen hfits
    rw [hinsert]
    exact h.pagesWith hlen _ _ hlow hhigh

/-! ## Bytes in use -/

/-- A place on a page belongs to the slot of the row with this index. -/
def Occupies (row page place : Nat) : Prop :=
  row / 14 = page ∧ row % 14 * 291 ≤ place ∧ place < row % 14 * 291 + 291

/-- The table holds these rows and nothing else: no page without a row on it, and nothing but zeros
between the rows and behind them. -/
structure Packs (table : Table) (rows : List Row) : Prop extends table.Stores rows where
  allocates : table.Allocates (pagesFor rows.length)
  zeros : ∀ index page, table.page? index = some page → ∀ place < pageSize,
    (∀ row < rows.length, ¬ Occupies row index place) → page.bytes[place]? = some 0

theorem packs_empty : Packs empty [] where
  toStores := stores_empty
  allocates := allocates_empty
  zeros := by
    intro index page hpage
    have hsome := (allocates_empty index).mp (by rw [hpage]; rfl)
    exact absurd hsome (Nat.not_lt_zero _)

theorem getElem?_blank {place : Nat} (hplace : place < pageSize) :
    Page.blank.bytes[place]? = some 0 := by
  simp [Page.blank, hplace]

theorem getElem?_put_of_not_occupies {page : Page} {row index place : Nat} (slot : Slot)
    (hindex : row / rowsPerPage = index) (h : ¬ Occupies row index place) :
    (page.put (row % rowsPerPage) slot).bytes[place]? = page.bytes[place]? := by
  by_cases hplace : place < pageSize
  · rw [Vector.getElem?_eq_getElem hplace, Vector.getElem?_eq_getElem hplace, Page.getElem_put,
      dif_neg]
    exact fun hslot => h ⟨hindex, hslot⟩
  · rw [Vector.getElem?_eq_none (Nat.le_of_not_lt hplace),
      Vector.getElem?_eq_none (Nat.le_of_not_lt hplace)]

/-- A slot that is found lies on an allocated page, in the place of its row. -/
theorem exists_page_of_slot? {table : Table} {n : Nat} {slot : Slot}
    (h : table.slot? n = some slot) :
    ∃ page, table.page? (n / rowsPerPage) = some page ∧
      (page.bytes.toList.drop (n % rowsPerPage * rowSize)).take rowSize = slot.bytes.toList := by
  obtain ⟨page, hpage, hslot⟩ := Option.bind_eq_some_iff.mp h
  refine ⟨page, hpage, ?_⟩
  cases hread : page.slot (n % rowsPerPage) with
  | error breach =>
      rw [hread] at hslot
      cases hslot
  | ok slot =>
      rw [hread] at hslot
      obtain rfl := Option.some.inj hslot
      exact Page.toList_of_slot hread

/-- The bytes of each row are in its place. -/
theorem Stores.exists_page {table : Table} {rows : List Row} (h : table.Stores rows) {n : Nat}
    (hn : n < rows.length) :
    ∃ page, table.page? (n / rowsPerPage) = some page ∧
      (page.bytes.toList.drop (n % rowsPerPage * rowSize)).take rowSize =
        (Slot.ofRow rows[n]).bytes.toList :=
  exists_page_of_slot? (h.slot?_eq n hn)

/-- A row that is appended lies in the first free slot, and what is free behind it is still zero. -/
theorem Packs.insert {table : Table} {rows : List Row} (h : table.Packs rows)
    (hroom : rows.length < maxRows) {row : Row} (hfits : row.Fits) :
    (table.insert row).table.Packs (rows ++ [row]) := by
  have hlen : table.len < maxRows := h.len_eq ▸ hroom
  have hlength : (rows ++ [row]).length = table.len + 1 := by
    rw [List.length_append, List.length_singleton, h.len_eq]
  have hinsert := insert_of_fits hlen hfits
  refine ⟨(h.toStores.insert hroom hfits).2, ?_, ?_⟩
  · have hbefore := h.allocates
    rw [← h.len_eq] at hbefore
    rw [hlength, pagesFor_succ]
    exact hbefore.insert hlen (Nat.le_refl _) (pagesFor_le_succ _) row
  · intro index page hpage place hplace hfree
    rw [hlength] at hfree
    -- A place that is free afterwards was free before, and the new row does not lie there.
    have hbefore : ∀ other < rows.length, ¬ Occupies other index place := by
      intro other hother
      exact hfree other (Nat.lt_succ_of_lt (h.len_eq ▸ hother))
    rw [hinsert, page?_pagesWith] at hpage
    split at hpage
    next hindex =>
      obtain rfl := Option.some.inj hpage
      rw [getElem?_put_of_not_occupies _ hindex.symm (hfree _ (Nat.lt_succ_self _))]
      match hnext : table.nextPage with
      | none => exact getElem?_blank hplace
      | some page =>
          subst hindex
          exact h.zeros _ page hnext place hplace hbefore
    next => exact h.zeros index page hpage place hplace hbefore

end Table

end RowStore
