import RowStore.Proofs.Session.Reachable
import RowStore.Proofs.Slot.RoundTrip

/-! # What becomes of an accepted row

A line that states a row whose texts have room is accepted, and its row is
confirmed as executed. What is stored of it, and shown from then on, are the
texts up to their first NUL: no rule about lines turns a NUL down, although a
column has no way to hold what comes behind one.
-/

namespace RowStore

open Text Sink

namespace Text

theorem length_beforeNul_le (text : String) : (beforeNul text).length ≤ text.length := by
  rw [← String.length_toList, ← String.length_toList, beforeNul, String.toList_ofList]
  exact (List.takeWhile_sublist _).length_le

theorem beforeNul_eq_self_of_length {text : String} (h : (beforeNul text).length = text.length) :
    beforeNul text = text := by
  rw [← String.length_toList, ← String.length_toList, beforeNul, String.toList_ofList] at h
  rw [beforeNul, (List.takeWhile_prefix _).eq_of_length h, String.ofList_toList]

end Text

namespace Row

/-- A listing tells a row from what is stored of it, since a cut text is shorter. -/
theorem display_stored_eq_iff {row : Row} : row.stored.display = row.display ↔ row.NulFree := by
  constructor
  · intro h
    have hlength := congrArg String.length h
    simp only [display, stored, String.length_append] at hlength
    have husername := length_beforeNul_le row.username
    have hemail := length_beforeNul_le row.email
    exact ⟨beforeNul_eq_self_iff.mp (beforeNul_eq_self_of_length (by omega)),
      beforeNul_eq_self_iff.mp (beforeNul_eq_self_of_length (by omega))⟩
  · intro h
    rw [stored_eq_self_iff.mpr h]

end Row

namespace Table

/-- A listing of a table is shown row by row. -/
theorem Stores.deliver_select {table : Table} {rows : List Row} (h : table.Stores rows) {σ : Type}
    [Sink σ] (metered : Metered σ none) {sink : σ} (hsink : metered.Covers sink) :
    ∃ last, (Statement.select.execute table).deliver sink = (last, .ok ()) ∧
      metered.written last = metered.written sink ++
        Utf8.encode (String.join (rows.map fun row => row.stored.display ++ "\n")) := by
  have hlines : (Statement.select.execute table).text =
      rows.map fun row => row.stored.display ++ "\n" := by
    simp only [Statement.execute, h.rows_eq, List.map_map, Function.comp_def]
  have houtcome : (Statement.select.execute table).outcome = .ok () := by
    simp only [Statement.execute, h.rows_eq]
  obtain ⟨last, hwrite, hwritten, -⟩ :=
    metered.writeAll_of_within hsink (Statement.select.execute table).text (within_none _)
  refine ⟨last, ?_, hlines ▸ hwritten⟩
  rw [Execution.deliver, hwrite, houtcome]

/-- While there is room, an accepted row is appended, and a listing ends with it: with the row
itself just if no NUL is in it, and otherwise with what is left of it before the NUL. -/
theorem Reachable.insert_keeps_beforeNul {table : Table} (h : table.Reachable)
    (hroom : table.isFull = false) {line : String} {row : Row}
    (hparse : Statement.parse line = .ok (.insert row)) {σ : Type} [Sink σ]
    (metered : Metered σ none) (sink : σ) (hsink : metered.Covers sink) :
    let done := (Statement.insert row).execute table
    ∃ before, table.rows = .ok before ∧ done.outcome = .ok () ∧
      done.table.rows = .ok (before ++ [row.stored]) ∧
      (∃ last, (Statement.select.execute done.table).deliver sink = (last, .ok ()) ∧
        metered.written last = metered.written sink ++
          Utf8.encode (String.join (before.map fun row => row.display ++ "\n")) ++
          Utf8.encode (row.stored.display ++ "\n")) ∧
      (row.stored = row ↔ row.NulFree) ∧ (row.stored.display = row.display ↔ row.NulFree) := by
  intro done
  obtain ⟨rows, hrows⟩ := h.sound
  have hlength : rows.length < Layout.maxRows := by
    rw [← hrows.len_eq]
    simpa [isFull] using hroom
  obtain ⟨houtcome, hstores⟩ := hrows.insert hlength (Statement.fits_of_parse hparse)
  obtain ⟨last, hlast, hwritten⟩ := hstores.deliver_select metered hsink
  refine ⟨rows.map Row.stored, hrows.rows_eq, houtcome, ?_, ⟨last, hlast, ?_⟩,
    Row.stored_eq_self_iff, Row.display_stored_eq_iff⟩
  · rw [← List.map_singleton, ← List.map_append]
    exact hstores.rows_eq
  · rw [hwritten, List.map_append, String.join_append, Utf8.encode_append, List.append_assoc,
      List.map_map, List.map_singleton, join_singleton]
    rfl

/-- No rule turns down a username with a NUL. -/
theorem parse_nul_in_username :
    Statement.parse "insert 1 ann\x00x a@b" = .ok (.insert ⟨1, "ann\x00x", "a@b"⟩) := by
  have hwords : Blank.words "insert 1 ann\x00x a@b" = ["insert", "1", "ann\x00x", "a@b"] := by
    decide +kernel
  have hnumber : Statement.rowNumber "1" = .ok 1 :=
    Statement.rowNumber_of_id (Numeral.integer?_eq_some_iff.mp (by decide +kernel)) (by decide)
  rw [Statement.parse_of_insert hwords, Statement.parseInsert_of_ok _ _ hnumber]
  rfl

/-- The end of a username is lost behind an answer that says nothing of it. -/
theorem insert_keeps_beforeNul_of_username :
    Statement.parse "insert 1 ann\x00x a@b" = .ok (.insert ⟨1, "ann\x00x", "a@b"⟩) ∧
      ((Statement.insert ⟨1, "ann\x00x", "a@b"⟩).execute empty).outcome = .ok () ∧
      ((Statement.insert ⟨1, "ann\x00x", "a@b"⟩).execute empty).table.rows =
        .ok [⟨1, "ann", "a@b"⟩] := by
  obtain ⟨before, hbefore, houtcome, hrows, -⟩ :=
    Reachable.empty.insert_keeps_beforeNul rfl parse_nul_in_username
      (Recorder.metered {} (Limits.allowance_eq_none rfl) rfl) {} rfl
  obtain rfl : [] = before := Except.ok.inj (stores_empty.rows_eq.symm.trans hbefore)
  have hstored : Row.stored ⟨1, "ann\x00x", "a@b"⟩ = ⟨1, "ann", "a@b"⟩ := by decide +kernel
  rw [hstored] at hrows
  exact ⟨parse_nul_in_username, houtcome, hrows⟩

/-- It is not the case that an accepted row is the last one of the rows that are read from then
on. -/
theorem not_insert_keeps_row :
    ¬ ∀ (table : Table) (line : String) (row : Row), table.Reachable → table.isFull = false →
      Statement.parse line = .ok (.insert row) →
      ∃ before, ((Statement.insert row).execute table).table.rows = .ok (before ++ [row]) := by
  intro hkeeps
  obtain ⟨before, hbefore⟩ := hkeeps empty _ _ .empty rfl parse_nul_in_username
  have hfits : Row.Fits ⟨1, "ann\x00x", "a@b"⟩ := ⟨by decide, by decide⟩
  have hstores := (stores_empty.insert (by decide) hfits).2
  have hrows := Except.ok.inj (hstores.rows_eq.symm.trans hbefore)
  have hlast := congrArg List.getLast? hrows
  rw [List.getLast?_concat] at hlast
  revert hlast
  decide +kernel

end Table

end RowStore
