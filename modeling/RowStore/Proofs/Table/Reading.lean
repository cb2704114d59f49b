import RowStore.Proofs.Table.Contents

/-! # Reading a table

A cursor on a table that was filled by appending rows is a position in the list
of these rows. Whatever it is used for, and in whichever order, it gives back
what the list has there and breaks no rule. So tables with the same rows cannot
be told apart by reading, although their pages may differ.
-/

namespace RowStore

namespace Cursor

/-- The uses of a cursor. -/
inductive Call where
  | value
  | next
  | advance
  | atEnd
  | remaining
deriving DecidableEq

/-- What a use of a cursor gives back. -/
inductive Answer where
  | row (row : Option Row)
  | moved
  | atEnd (atEnd : Bool)
  | remaining (count : Nat)
deriving DecidableEq

/-- Uses a cursor once. -/
def use (cursor : Cursor) : Call → Except Breach (Answer × Cursor)
  | .value => cursor.value.map fun row => (.row row, cursor)
  | .next => cursor.next.map fun (row, rest) => (.row row, rest)
  | .advance => .ok (.moved, cursor.advance)
  | .atEnd => .ok (.atEnd cursor.atEnd, cursor)
  | .remaining => cursor.remaining.map fun count => (.remaining count, cursor)

/-- Uses a cursor several times. -/
def uses (cursor : Cursor) : List Call → Except Breach (List Answer × Cursor)
  | [] => .ok ([], cursor)
  | call :: calls =>
      match cursor.use call with
      | .error breach => .error breach
      | .ok (answer, cursor) => (cursor.uses calls).map fun (answers, last) => (answer :: answers, last)

/-! ## Positions in a list -/

namespace Call

/-- What a use gives back at a position in a list of rows. -/
def answer (rows : List Row) (position : Nat) : Call → Answer
  | .value => .row rows[position]?
  | .next => .row rows[position]?
  | .advance => .moved
  | .atEnd => .atEnd (rows.length ≤ position)
  | .remaining => .remaining (rows.length - position)

/-- The position after a use. The end is never passed. -/
def behind (rows : List Row) (position : Nat) : Call → Nat
  | .next => min (position + 1) rows.length
  | .advance => min (position + 1) rows.length
  | .value => position
  | .atEnd => position
  | .remaining => position

theorem behind_le {rows : List Row} {position : Nat} (h : position ≤ rows.length) (call : Call) :
    call.behind rows position ≤ rows.length := by
  cases call with
  | next => exact Nat.min_le_right _ _
  | advance => exact Nat.min_le_right _ _
  | value => exact h
  | atEnd => exact h
  | remaining => exact h

/-- No use goes back. -/
theorem le_behind {rows : List Row} {position : Nat} (h : position ≤ rows.length) (call : Call) :
    position ≤ call.behind rows position := by
  cases call with
  | next => exact Nat.le_min.mpr ⟨Nat.le_succ _, h⟩
  | advance => exact Nat.le_min.mpr ⟨Nat.le_succ _, h⟩
  | value => exact Nat.le_refl _
  | atEnd => exact Nat.le_refl _
  | remaining => exact Nat.le_refl _

/-- What several uses give back, from a position in a list of rows on. -/
def answers (rows : List Row) (position : Nat) : List Call → List Answer
  | [] => []
  | call :: calls => call.answer rows position :: answers rows (call.behind rows position) calls

end Call

end Cursor

namespace Table

variable {table : Table} {rows : List Row} {position : Nat}

theorem Stores.row?_eq_getElem? (h : table.Stores rows) (n : Nat) :
    table.row? n = .ok (rows.map Row.stored)[n]? := by
  rcases Nat.lt_or_ge n rows.length with hlt | hge
  · rw [h.row?_eq hlt, List.getElem?_map, List.getElem?_eq_getElem hlt]
    rfl
  · rw [row?_of_len_le (h.len_eq ▸ hge), List.getElem?_eq_none (by rwa [List.length_map])]

theorem Stores.advance_eq (h : table.Stores rows) (hposition : position ≤ rows.length) :
    Cursor.advance { table, position } = { table, position := min (position + 1) rows.length } := by
  have hlen := h.len_eq
  rw [Cursor.advance, Cursor.atEnd]
  split
  next hend =>
    have hle : rows.length ≤ position := by simpa [hlen] using hend
    rw [Nat.min_eq_right (by omega), Nat.le_antisymm hposition hle]
  next hahead =>
    have hlt : position < rows.length := by simpa [hlen] using hahead
    rw [Nat.min_eq_left hlt]

theorem Stores.next_eq (h : table.Stores rows) (hposition : position ≤ rows.length) :
    Cursor.next { table, position } =
      .ok ((rows.map Row.stored)[position]?,
        { table, position := min (position + 1) rows.length }) := by
  rw [Cursor.next, Cursor.value, h.row?_eq_getElem? position, ← h.advance_eq hposition]
  rcases Nat.lt_or_eq_of_le hposition with hlt | rfl
  · rw [List.getElem?_map, List.getElem?_eq_getElem hlt]
    rfl
  · -- At the end there is no row, and no way to advance.
    rw [List.getElem?_eq_none (Nat.le_of_eq (List.length_map _)), h.advance_eq (Nat.le_refl _),
      Nat.min_eq_right (Nat.le_succ _)]

theorem Stores.use_eq (h : table.Stores rows) (hposition : position ≤ rows.length)
    (call : Cursor.Call) :
    Cursor.use { table, position } call =
      .ok (call.answer (rows.map Row.stored) position,
        { table, position := call.behind (rows.map Row.stored) position }) := by
  cases call with
  | value =>
      rw [Cursor.use, Cursor.value, h.row?_eq_getElem? position]
      rfl
  | next =>
      rw [Cursor.use, h.next_eq hposition, Cursor.Call.behind, List.length_map]
      rfl
  | advance =>
      rw [Cursor.use, h.advance_eq hposition, Cursor.Call.behind, List.length_map]
      rfl
  | atEnd =>
      rw [Cursor.use, Cursor.atEnd, h.len_eq, Cursor.Call.answer, List.length_map]
      rfl
  | remaining =>
      have hnot : ¬ table.len < position := Nat.not_lt.mpr (h.len_eq ▸ hposition)
      rw [Cursor.use, Cursor.remaining, if_neg hnot, h.len_eq, Cursor.Call.answer, List.length_map]
      rfl

/-- A cursor gives back what the list of the rows has at its position, use after use. It does not go
back, and it does not pass the end. -/
theorem Stores.exists_uses_eq (h : table.Stores rows) (hposition : position ≤ rows.length)
    (calls : List Cursor.Call) :
    ∃ last, position ≤ last ∧ last ≤ rows.length ∧ Cursor.uses { table, position } calls =
      .ok (Cursor.Call.answers (rows.map Row.stored) position calls, { table, position := last }) := by
  induction calls generalizing position with
  | nil => exact ⟨position, Nat.le_refl _, hposition, rfl⟩
  | cons call calls ih =>
      have hle : position ≤ (rows.map Row.stored).length := by rwa [List.length_map]
      have hbehind := Cursor.Call.behind_le hle call
      rw [List.length_map] at hbehind
      obtain ⟨last, hforward, hend, hlast⟩ := ih hbehind
      refine ⟨last, Nat.le_trans (Cursor.Call.le_behind hle call) hforward, hend, ?_⟩
      rw [Cursor.uses, h.use_eq hposition call]
      simp only [hlast]
      rfl

theorem Stores.uses_eq (h : table.Stores rows) (hposition : position ≤ rows.length)
    (calls : List Cursor.Call) :
    ∃ last ≤ rows.length, Cursor.uses { table, position } calls =
      .ok (Cursor.Call.answers (rows.map Row.stored) position calls, { table, position := last }) := by
  obtain ⟨last, -, hend, hlast⟩ := h.exists_uses_eq hposition calls
  exact ⟨last, hend, hlast⟩

/-- Nothing that can be asked of two tables tells them apart. -/
structure LooksLike (table other : Table) : Prop where
  len_eq : table.len = other.len
  isEmpty_eq : table.isEmpty = other.isEmpty
  isFull_eq : table.isFull = other.isFull
  rows_eq : table.rows = other.rows
  start_eq : ∀ calls, ((Cursor.start table).uses calls).map (·.1) =
    ((Cursor.start other).uses calls).map (·.1)
  finish_eq : ∀ calls, ((Cursor.finish table).uses calls).map (·.1) =
    ((Cursor.finish other).uses calls).map (·.1)

theorem Stores.map_uses_eq (h : table.Stores rows) (hposition : position ≤ rows.length)
    (calls : List Cursor.Call) :
    (Cursor.uses { table, position } calls).map (·.1) =
      .ok (Cursor.Call.answers (rows.map Row.stored) position calls) := by
  obtain ⟨last, -, hlast⟩ := h.uses_eq hposition calls
  rw [hlast]
  rfl

/-- Tables with the same rows look alike, whatever else is on their pages. -/
theorem Stores.looksLike {other : Table} (h : table.Stores rows) (hother : other.Stores rows) :
    table.LooksLike other := by
  have hlen : table.len = other.len := h.len_eq.trans hother.len_eq.symm
  refine ⟨hlen, ?_, ?_, ?_, ?_, ?_⟩
  · rw [isEmpty, isEmpty, hlen]
  · rw [isFull, isFull, hlen]
  · rw [h.rows_eq, hother.rows_eq]
  · intro calls
    rw [Cursor.start, Cursor.start, h.map_uses_eq (Nat.zero_le _),
      hother.map_uses_eq (Nat.zero_le _)]
  · intro calls
    rw [Cursor.finish, Cursor.finish, h.map_uses_eq (Nat.le_of_eq h.len_eq),
      hother.map_uses_eq (Nat.le_of_eq hother.len_eq), hlen]

end Table

end RowStore
