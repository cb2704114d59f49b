import Mathlib.Logic.Function.Iterate
import RowStore.Proofs.Session.Reachable
import RowStore.Proofs.Table.Reading

/-! # Walking through a table

A cursor may be used in any order: asked for the row at its position, moved on
with the row or without it, asked how far it is from the end. It stays within
the rows of its table, and the different uses agree on where it is. Two of them
could go wrong on a table of another kind. The number of rows that are left is a
difference, which needs a position that is not behind the end; and a row is
missing in the middle of a table if its page is, which would end a walk too
early.
-/

namespace RowStore

namespace Cursor

/-- What the uses of a cursor on a table with these rows have to do with each other. -/
structure Walks (cursor : Cursor) (rows : List Row) : Prop where
  position_le : cursor.position ≤ rows.length
  value_eq : cursor.value = .ok rows[cursor.position]?
  value_eq_none_iff : cursor.value = .ok none ↔ cursor.atEnd = true
  remaining_eq : cursor.remaining = .ok (rows.length - cursor.position)
  sizeHint_eq : cursor.sizeHint =
    .ok (rows.length - cursor.position, some (rows.length - cursor.position))
  /-- As many rows are yielded as are left, and nothing behind them. -/
  yields : ∀ more,
    (cursor.uses (.replicate (rows.length - cursor.position + more) .next)).map (·.1) =
      .ok ((rows.drop cursor.position).map (fun row => .row (some row)) ++
        .replicate more (.row none))
  next_eq : cursor.next = cursor.value.map fun row => (row, cursor.advance)
  advance_of_atEnd : cursor.atEnd = true → cursor.advance = cursor
  /-- Behind the last row nothing moves the cursor any more. -/
  next_of_none : ∀ rest, cursor.next = .ok (none, rest) →
    rest = cursor ∧ ∀ calls, ∃ answers, cursor.uses calls = .ok (answers, cursor)
  /-- Rows that are skipped are the first ones of those that would be yielded. -/
  value_advance : ∀ count, ∃ row, (advance^[count] cursor).value = .ok row ∧
    (cursor.uses (.replicate (count + 1) .next)).map (·.1[count]?) = .ok (some (.row row))

/-! ## Walking in a list -/

namespace Call

variable {rows : List Row} {position : Nat}

theorem answers_replicate_next (h : position ≤ rows.length) (count : Nat) :
    answers rows position (.replicate count .next) =
      (List.range count).map fun i => .row rows[position + i]? := by
  induction count generalizing position with
  | zero => rfl
  | succ count ih =>
      have hbehind : Call.next.behind rows position = min (position + 1) rows.length := rfl
      rw [List.replicate_succ, answers, hbehind, ih (Nat.min_le_right _ _),
        List.range_succ_eq_map, List.map_cons, List.map_map]
      refine congrArg (_ :: ·) (List.map_congr_left ?_)
      intro i _
      rcases Nat.lt_or_eq_of_le h with hlt | rfl
      · rw [Nat.min_eq_left hlt, Nat.succ_add_eq_add_succ]
        rfl
      · -- At the end there is no row, and no way to come to one.
        simp

/-- The rows that are left come first, and then none. -/
theorem answers_next_eq (h : position ≤ rows.length) (more : Nat) :
    answers rows position (.replicate (rows.length - position + more) .next) =
      (rows.drop position).map (fun row => .row (some row)) ++ .replicate more (.row none) := by
  rw [answers_replicate_next h, List.range_add, List.map_append]
  refine congrArg₂ (· ++ ·) ?_ ?_
  · refine List.ext_getElem (by simp) ?_
    intro i hi _
    have hlt : position + i < rows.length := by
      rw [List.length_map, List.length_range] at hi
      omega
    simp [hlt]
  · refine List.eq_replicate_iff.mpr ⟨by simp, ?_⟩
    intro answer hanswer
    obtain ⟨i, -, rfl⟩ : ∃ i < more, .row rows[position + (rows.length - position + i)]? = answer := by
      simpa using hanswer
    rw [List.getElem?_eq_none (by omega)]

end Call

end Cursor

/-! ## Walking in a table -/

namespace Table

variable {table : Table} {rows : List Row} {position : Nat}

theorem Stores.iterate_advance (h : table.Stores rows) (hposition : position ≤ rows.length)
    (count : Nat) :
    Cursor.advance^[count] { table, position } =
      { table, position := min (position + count) rows.length } := by
  induction count with
  | zero => rw [Function.iterate_zero_apply, Nat.add_zero, Nat.min_eq_left hposition]
  | succ count ih =>
      rw [Function.iterate_succ_apply', ih, h.advance_eq (Nat.min_le_right _ _)]
      congr 1
      omega

/-- No use moves a cursor away from the end. -/
theorem Stores.uses_of_end (h : table.Stores rows) (calls : List Cursor.Call) :
    Cursor.uses { table, position := rows.length } calls =
      .ok (Cursor.Call.answers (rows.map Row.stored) rows.length calls,
        { table, position := rows.length }) := by
  obtain ⟨last, hforward, hend, hlast⟩ := h.exists_uses_eq (Nat.le_refl _) calls
  obtain rfl : last = rows.length := Nat.le_antisymm hend hforward
  exact hlast

theorem Stores.walks (h : table.Stores rows) (hposition : position ≤ rows.length) :
    Cursor.Walks { table, position } (rows.map Row.stored) := by
  have hlength : (rows.map Row.stored).length = rows.length := List.length_map Row.stored
  have hle : position ≤ (rows.map Row.stored).length := hlength ▸ hposition
  have hvalue : Cursor.value { table, position } = .ok (rows.map Row.stored)[position]? :=
    h.row?_eq_getElem? position
  have hremaining : Cursor.remaining { table, position } =
      .ok ((rows.map Row.stored).length - position) := by
    rw [Cursor.remaining, if_neg (Nat.not_lt.mpr (h.len_eq ▸ hposition)), h.len_eq, hlength]
  have hend : Cursor.atEnd { table, position } = true ↔ position = rows.length := by
    rw [Cursor.atEnd, decide_eq_true_iff, h.len_eq]
    exact ⟨Nat.le_antisymm hposition, fun heq => Nat.le_of_eq heq.symm⟩
  have hnone : (rows.map Row.stored)[position]? = none ↔ position = rows.length := by
    rw [List.getElem?_eq_none_iff, hlength]
    exact ⟨Nat.le_antisymm hposition, fun heq => Nat.le_of_eq heq.symm⟩
  refine
    { position_le := hle
      value_eq := hvalue
      value_eq_none_iff := ?_
      remaining_eq := hremaining
      sizeHint_eq := ?_
      yields := ?_
      next_eq := ?_
      advance_of_atEnd := ?_
      next_of_none := ?_
      value_advance := ?_ }
  · rw [hvalue, Except.ok.injEq, hnone, hend]
  · rw [Cursor.sizeHint, hremaining]
    rfl
  · intro more
    rw [h.map_uses_eq hposition, Cursor.Call.answers_next_eq hle]
  · rw [h.next_eq hposition, hvalue, h.advance_eq hposition]
    rfl
  · intro hatEnd
    rw [h.advance_eq hposition, hend.mp hatEnd, Nat.min_eq_right (Nat.le_succ _)]
  · intro rest hnext
    rw [h.next_eq hposition] at hnext
    obtain ⟨hrow, rfl⟩ := Prod.mk.inj (Except.ok.inj hnext)
    obtain rfl := hnone.mp hrow
    exact ⟨by rw [Nat.min_eq_right (Nat.le_succ _)], fun calls => ⟨_, h.uses_of_end calls⟩⟩
  · intro count
    refine ⟨(rows.map Row.stored)[position + count]?, ?_, ?_⟩
    · rw [h.iterate_advance hposition count, Cursor.value, h.row?_eq_getElem?]
      rcases Nat.le_total (position + count) rows.length with hin | hout
      · rw [Nat.min_eq_left hin]
      · rw [Nat.min_eq_right hout, List.getElem?_eq_none (Nat.le_of_eq hlength),
          List.getElem?_eq_none (by omega)]
    · obtain ⟨last, -, huses⟩ := h.uses_eq hposition (.replicate (count + 1) .next)
      rw [huses, Cursor.Call.answers_replicate_next hle]
      simp [Except.map]

/-- A cursor of a table may be used in any way, from the start or from the end: no rule is broken, it
stays on its table and within the rows, and behind each use the others still agree on where it is. -/
theorem Attainable.cursor_walks {table : Table} (h : table.Attainable) :
    ∃ rows, table.rows = .ok rows ∧ rows.length = table.len ∧
      ∀ cursor, cursor = Cursor.start table ∨ cursor = Cursor.finish table →
        ∀ calls, ∃ answers last, cursor.uses calls = .ok (answers, last) ∧ last.table = table ∧
          last.Walks rows := by
  obtain ⟨rows, hrows⟩ := h.sound
  refine ⟨rows.map Row.stored, hrows.rows_eq, ?_, ?_⟩
  · rw [List.length_map, hrows.len_eq]
  · intro cursor hcursor calls
    obtain ⟨position, hposition, rfl⟩ : ∃ position ≤ rows.length, cursor = { table, position } := by
      rcases hcursor with rfl | rfl
      · exact ⟨0, Nat.zero_le _, rfl⟩
      · exact ⟨table.len, Nat.le_of_eq hrows.len_eq, rfl⟩
    obtain ⟨last, hlast, huses⟩ := hrows.uses_eq hposition calls
    exact ⟨_, _, huses, rfl, hrows.walks hlast⟩

/-- A row that did not fit has left a page behind, and the row after it is walked over. -/
theorem cursor_walks_of_one_row :
    let table :=
      ((empty.insert ⟨7, "annabel", String.ofList (.replicate 256 'e')⟩).table.insert
        ⟨1, "bob", "b@c"⟩).table
    ((Cursor.finish table).uses [.next, .remaining]).map (·.1) = .ok [.row none, .remaining 0] ∧
      (Cursor.start table).Walks [⟨1, "bob", "b@c"⟩] := by
  intro table
  have hstores : table.Stores [⟨1, "bob", "b@c"⟩] :=
    ((stores_empty.insert_of_not_fits (by decide) (by decide +kernel)).insert (by decide)
      ⟨by decide, by decide⟩).2
  have hattainable : table.Attainable := (Attainable.empty.insert _).insert _
  obtain ⟨rows, hrows, -, hwalks⟩ := hattainable.cursor_walks
  have hstored : [⟨1, "bob", "b@c"⟩].map Row.stored = [⟨1, "bob", "b@c"⟩] := by decide +kernel
  obtain rfl : [⟨1, "bob", "b@c"⟩] = rows :=
    hstored.symm.trans (Except.ok.inj (hstores.rows_eq.symm.trans hrows))
  refine ⟨?_, ?_⟩
  · rw [Cursor.finish, hstores.map_uses_eq (Nat.le_of_eq hstores.len_eq), hstores.len_eq,
      hstored]
    rfl
  · obtain ⟨answers, last, huses, -, hlast⟩ := hwalks (Cursor.start table) (Or.inl rfl) []
    obtain ⟨-, rfl⟩ := Prod.mk.inj (Except.ok.inj huses)
    exact hlast

end Table

end RowStore
