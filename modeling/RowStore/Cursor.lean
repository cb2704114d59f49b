import RowStore.Table

/-! # Cursors

A cursor is a position in a table, from the first row to one past the last. It
never moves beyond that end. Main statement: every row that a cursor yields
brings it one step nearer to the end, so reading all rows comes to an end.
-/

namespace RowStore

/-- A position in a table. -/
structure Cursor where
  table : Table
  position : Nat

namespace Cursor

/-- The position of the first row. -/
def start (table : Table) : Cursor := { table, position := 0 }

/-- The position after the last row. -/
def finish (table : Table) : Cursor := { table, position := table.len }

/-- There is no row at the position. -/
def atEnd (cursor : Cursor) : Bool :=
  cursor.table.len ≤ cursor.position

/-- The row at the position. -/
def value (cursor : Cursor) : Except Breach (Option Row) :=
  cursor.table.row? cursor.position

/-- The next position. The end has none. -/
def advance (cursor : Cursor) : Cursor :=
  if cursor.atEnd then cursor else { cursor with position := cursor.position + 1 }

/-- The row at the position, and the cursor behind it. Without a row the cursor
stays. -/
def next (cursor : Cursor) : Except Breach (Option Row × Cursor) :=
  match cursor.value with
  | .error breach => .error breach
  | .ok none => .ok (none, cursor)
  | .ok (some row) => .ok (some row, cursor.advance)

/-- The number of rows from the position on. -/
def remaining (cursor : Cursor) : Except Breach Nat :=
  if cursor.table.len < cursor.position then
    .error (.pastEnd cursor.position cursor.table.len)
  else .ok (cursor.table.len - cursor.position)

/-- The least and the greatest number of rows that are still to come. Both are known. -/
def sizeHint (cursor : Cursor) : Except Breach (Nat × Option Nat) :=
  cursor.remaining.map fun left => (left, some left)

theorem next_eq_some {cursor rest : Cursor} {row : Row}
    (h : cursor.next = .ok (some row, rest)) :
    cursor.position < cursor.table.len ∧
      rest = { cursor with position := cursor.position + 1 } := by
  unfold next at h
  split at h
  next => cases h
  next => cases h
  next row' hvalue =>
    have hlt : cursor.position < cursor.table.len := by
      apply Nat.lt_of_not_le
      intro hle
      rw [value, Table.row?_of_len_le hle] at hvalue
      cases hvalue
    simp only [Except.ok.injEq, Prod.mk.injEq, Option.some.injEq] at h
    refine ⟨hlt, ?_⟩
    rw [← h.2, advance, atEnd, if_neg (by simpa using hlt)]

/-- The rows from the position to the end, in order. -/
def rows (cursor : Cursor) : Except Breach (List Row) :=
  match _hnext : cursor.next with
  | .error breach => .error breach
  | .ok (none, _) => .ok []
  | .ok (some row, rest) => rest.rows.map (row :: ·)
termination_by cursor.table.len - cursor.position
decreasing_by
  obtain ⟨hlt, rfl⟩ := next_eq_some _hnext
  simp only
  omega

theorem rows_of_next_none {cursor rest : Cursor} (h : cursor.next = .ok (none, rest)) :
    cursor.rows = .ok [] := by
  rw [rows]
  split
  next hnext => rw [h] at hnext; cases hnext
  next => rfl
  next hnext => rw [h] at hnext; cases hnext

theorem rows_of_next_some {cursor rest : Cursor} {row : Row}
    (h : cursor.next = .ok (some row, rest)) : cursor.rows = rest.rows.map (row :: ·) := by
  rw [rows]
  split
  next hnext => rw [h] at hnext; cases hnext
  next hnext => rw [h] at hnext; cases hnext
  next hnext => rw [h] at hnext; cases hnext; rfl

end Cursor

/-- All rows of a table, in the order in which they were appended. -/
def Table.rows (table : Table) : Except Breach (List Row) :=
  (Cursor.start table).rows

end RowStore
