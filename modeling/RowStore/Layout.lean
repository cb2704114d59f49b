/-! # Sizes of the store

A row takes a fixed number of bytes, whatever its texts are, so the place of a
row in a page is a function of its index alone. All sizes are in bytes.
-/

namespace RowStore.Layout

/-- The row number is stored in four bytes. -/
def idSize : Nat := 4

/-- The longest username that a row can hold. -/
def usernameSize : Nat := 32

/-- The longest email that a row can hold. -/
def emailSize : Nat := 255

/-- The row number comes first. -/
def idOffset : Nat := 0

/-- The username follows the row number. -/
def usernameOffset : Nat := idOffset + idSize

/-- The email follows the username. -/
def emailOffset : Nat := usernameOffset + usernameSize

/-- The columns lie side by side and nothing else is in a row. -/
def rowSize : Nat := idSize + usernameSize + emailSize

/-- The size of a page, the unit of allocation. -/
def pageSize : Nat := 4096

/-- The number of pages that a table has room for. -/
def maxPages : Nat := 100

/-- A row never crosses the end of its page, so a page holds whole rows only. -/
def rowsPerPage : Nat := pageSize / rowSize

/-- The number of rows that fill every page. -/
def maxRows : Nat := rowsPerPage * maxPages

theorem rowSize_eq : rowSize = 291 := rfl

theorem pageSize_eq : pageSize = 4096 := rfl

theorem rowsPerPage_eq : rowsPerPage = 14 := rfl

theorem maxRows_eq : maxRows = 1400 := rfl

/-- The slots of a page lie inside it. -/
theorem mul_rowSize_add_le {index : Nat} (h : index < rowsPerPage) :
    index * rowSize + rowSize ≤ pageSize := by
  simp only [rowsPerPage_eq] at h
  simp only [rowSize_eq, pageSize_eq]
  omega

/-- A row that is not past the last one lies on one of the pages. -/
theorem div_rowsPerPage_lt {n : Nat} (h : n < maxRows) : n / rowsPerPage < maxPages := by
  simp only [maxRows_eq] at h
  simp only [rowsPerPage_eq, maxPages]
  omega

end RowStore.Layout
