import RowStore.Event
import RowStore.Page

/-! # The table

A table is a sequence of rows that only grows. Row `n` lies in slot
`n % rowsPerPage` of page `n / rowsPerPage`, and a page is allocated when the
first row is put on it.
-/

namespace RowStore

open Layout

/-- The number of rows and the pages, of which some are allocated. -/
@[ext]
structure Table where
  len : Nat
  pages : Vector (Option Page) maxPages
deriving DecidableEq

/-- The result of appending a row. -/
structure Insertion where
  table : Table
  events : List Event
  outcome : Except Fault Unit

namespace Table

/-- A table without rows has no pages. -/
def empty : Table := { len := 0, pages := .replicate maxPages none }

/-- There are no rows. -/
def isEmpty (table : Table) : Bool :=
  table.len == 0

/-- There is no room for one more row. -/
def isFull (table : Table) : Bool :=
  maxRows ≤ table.len

/-- The number of pages in use. -/
def allocatedPages (table : Table) : Nat :=
  table.pages.toList.countP Option.isSome

/-- Appends a row. A full table turns it down. Otherwise the page is allocated
before the row is written, so an unsuitable row can leave a new page behind,
and bytes of it in a slot that no row occupies yet. -/
def insert (table : Table) (row : Row) : Insertion :=
  if table.isFull then
    { table, events := [.insertRefused table.len], outcome := .error (.rejected .tableFull) }
  else
    let index := table.len / rowsPerPage
    if h : index < maxPages then
      let events := if table.pages[index].isSome then [] else [.pageAllocated index]
      let page := table.pages[index].getD .blank
      match page.slot (table.len % rowsPerPage) with
      | .error breach =>
        { table := { table with pages := table.pages.set index (some page) }
          events
          outcome := .error (.breached breach) }
      | .ok slot =>
        let written := slot.store row
        let pages := table.pages.set index (some (page.put (table.len % rowsPerPage) written.1))
        match written.2 with
        | .error breach =>
          { table := { table with pages }, events, outcome := .error (.breached breach) }
        | .ok () => { table := { len := table.len + 1, pages }, events, outcome := .ok () }
    else { table, events := [], outcome := .error (.breached (.noSuchPage index)) }

/-- The row with this index, if there are that many rows. -/
def row? (table : Table) (n : Nat) : Except Breach (Option Row) :=
  if table.len ≤ n then .ok none
  else
    let index := n / rowsPerPage
    if h : index < maxPages then
      match table.pages[index] with
      | none => .ok none
      | some page => (page.slot (n % rowsPerPage)).map fun slot => some slot.row
    else .error (.noSuchPage index)

theorem row?_of_len_le {table : Table} {n : Nat} (h : table.len ≤ n) :
    table.row? n = .ok none :=
  if_pos h

end Table

end RowStore
