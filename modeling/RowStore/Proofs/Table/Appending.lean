import RowStore.Proofs.Table.Contents

/-! # Sequences of insertions

A table that is filled row by row is a list that grows at its end up to a fixed
length. The paging never shows: which calls succeed depends on the number of
successful calls alone, and what was read of earlier rows stays as it was.
-/

namespace RowStore

open Layout

namespace Table

/-- Appends rows one after the other. The outcome of each call is kept. -/
def insertAll (table : Table) : List Row → Table × List (Except Fault Unit)
  | [] => (table, [])
  | row :: rows =>
      let insertion := table.insert row
      let rest := insertion.table.insertAll rows
      (rest.1, insertion.outcome :: rest.2)

/-- The rows whose insertion succeeded. -/
def accepted (rows : List Row) (outcomes : List (Except Fault Unit)) : List Row :=
  ((rows.zip outcomes).filter (·.2.isOk)).map (·.1)

/-- What a call is due to end with after so many successful ones. -/
def dueAfter (successes : Nat) : Except Fault Unit :=
  if successes < 1400 then .ok () else .error (.rejected .tableFull)

theorem accepted_cons_ok (row : Row) (rows : List Row) (outcomes : List (Except Fault Unit)) :
    accepted (row :: rows) (.ok () :: outcomes) = row :: accepted rows outcomes := rfl

theorem accepted_cons_error (row : Row) (rows : List Row) (fault : Fault)
    (outcomes : List (Except Fault Unit)) :
    accepted (row :: rows) (.error fault :: outcomes) = accepted rows outcomes := rfl

theorem insertAll_append (table : Table) (first second : List Row) :
    table.insertAll (first ++ second) =
      (((table.insertAll first).1.insertAll second).1,
        (table.insertAll first).2 ++ ((table.insertAll first).1.insertAll second).2) := by
  induction first generalizing table with
  | nil => rfl
  | cons row rows ih => simp only [List.cons_append, insertAll, ih]

@[simp] theorem length_insertAll (table : Table) (rows : List Row) :
    (table.insertAll rows).2.length = rows.length := by
  induction rows generalizing table with
  | nil => rfl
  | cons row rows ih => simp only [insertAll, List.length_cons, ih]

theorem zip_append_outcomes {rows : List Row} {outcomes : List (Except Fault Unit)}
    (hlength : rows.length = outcomes.length) (later : List (Except Fault Unit)) :
    rows.zip (outcomes ++ later) = rows.zip outcomes := by
  have happend : (rows ++ []).zip (outcomes ++ later) = rows.zip outcomes ++ [].zip later :=
    List.zip_append hlength
  rwa [List.append_nil, List.zip_nil_left, List.append_nil] at happend

/-- Outcomes of later calls do not count for the rows of earlier ones. -/
theorem accepted_append_outcomes {rows : List Row} {outcomes : List (Except Fault Unit)}
    (hlength : rows.length = outcomes.length) (later : List (Except Fault Unit)) :
    accepted rows (outcomes ++ later) = accepted rows outcomes := by
  rw [accepted, accepted, zip_append_outcomes hlength]

theorem Stores.insertAll {table : Table} {held : List Row} (h : table.Stores held)
    {rows : List Row} (hfits : ∀ row ∈ rows, row.Fits) :
    (table.insertAll rows).1.Stores (held ++ accepted rows (table.insertAll rows).2) := by
  induction rows generalizing table held with
  | nil => simpa [Table.insertAll, accepted] using h
  | cons row rows ih =>
      have hrest : ∀ row ∈ rows, row.Fits := by
        intro row hrow
        exact hfits row (List.mem_cons_of_mem _ hrow)
      rcases Nat.lt_or_eq_of_le h.length_le with hroom | hfull
      · obtain ⟨houtcome, hstores⟩ := h.insert hroom (hfits row List.mem_cons_self)
        have hall := ih hstores hrest
        rw [Table.insertAll, houtcome, accepted_cons_ok]
        rwa [List.append_assoc] at hall
      · have hall := ih h hrest
        rw [Table.insertAll, h.insert_of_full hfull, accepted_cons_error]
        exact hall

/-- Whether a call succeeds depends on how many calls did before it. -/
theorem Stores.outcome_insertAll {table : Table} {held : List Row} (h : table.Stores held)
    {rows : List Row} (hfits : ∀ row ∈ rows, row.Fits) {i : Nat} (hi : i < rows.length) :
    (table.insertAll rows).2[i]? =
      some (dueAfter (held.length + ((table.insertAll rows).2.take i).countP (·.isOk))) := by
  induction rows generalizing table held i with
  | nil => simp at hi
  | cons row rows ih =>
      have hrest : ∀ row ∈ rows, row.Fits := by
        intro row hrow
        exact hfits row (List.mem_cons_of_mem _ hrow)
      -- The first call moves from the calls to come to the rows that are held.
      rcases Nat.lt_or_eq_of_le h.length_le with hroom | hfull
      · obtain ⟨houtcome, hstores⟩ := h.insert hroom (hfits row List.mem_cons_self)
        simp only [Table.insertAll, houtcome]
        cases i with
        | zero =>
            have hdue : dueAfter held.length = .ok () := if_pos hroom
            simp [hdue]
        | succ i =>
            have hlater := ih hstores hrest (Nat.lt_of_succ_lt_succ hi)
            simp only [List.length_append, List.length_singleton] at hlater
            rw [List.getElem?_cons_succ, hlater, List.take_succ_cons, List.countP_cons_of_pos rfl,
              Nat.add_assoc, Nat.add_comm 1]
      · simp only [Table.insertAll, h.insert_of_full hfull]
        cases i with
        | zero =>
            have hdue : dueAfter held.length = .error (.rejected .tableFull) :=
              if_neg (Nat.not_lt.mpr (Nat.le_of_eq hfull.symm))
            simp [hdue]
        | succ i =>
            have hlater := ih h hrest (Nat.lt_of_succ_lt_succ hi)
            rw [List.getElem?_cons_succ, hlater, List.take_succ_cons,
              List.countP_cons_of_neg Bool.false_ne_true]

theorem Stores.remaining_start {table : Table} {held : List Row} (h : table.Stores held) :
    (Cursor.start table).remaining = .ok held.length := by
  have hremaining : (Cursor.start table).remaining = .ok table.len :=
    if_neg (Nat.not_lt_zero table.len)
  rw [hremaining, h.len_eq]

theorem Stores.isEmpty_iff {table : Table} {held : List Row} (h : table.Stores held) :
    table.isEmpty = true ↔ held = [] := by
  rw [isEmpty, beq_iff_eq, h.len_eq, List.length_eq_zero_iff]

theorem Stores.isFull_iff {table : Table} {held : List Row} (h : table.Stores held) :
    table.isFull = true ↔ held.length = maxRows := by
  have hle := h.length_le
  rw [isFull, decide_eq_true_iff, h.len_eq]
  omega

/-- A table refines a bounded list that only grows at its end. Of any sequence of insertions,
split anywhere into the calls so far and the later ones, those succeed that come before the list
is full; the rows of the successful calls are what reading, counting and the size checks see; and
the later calls leave what was read before as a prefix of what is read after them. -/
theorem insertAll_refines_boundedList (calls later : List Row)
    (hfits : ∀ row ∈ calls ++ later, row.Fits) :
    let outcomes := (empty.insertAll (calls ++ later)).2
    let table := (empty.insertAll calls).1
    let held := (accepted calls outcomes).map Row.stored
    (∀ i < (calls ++ later).length,
      outcomes[i]? = some (dueAfter ((outcomes.take i).countP (·.isOk)))) ∧
    table.rows = .ok held ∧
    table.len = held.length ∧
    (table.isEmpty = true ↔ held = []) ∧
    (table.isFull = true ↔ held.length = 1400) ∧
    (Cursor.start table).remaining = .ok held.length ∧
    table.rows.map List.length = .ok held.length ∧
    table.rows.map List.getLast? = .ok held.getLast? ∧
    ∃ more, (empty.insertAll (calls ++ later)).1.rows = .ok (held ++ more) := by
  intro outcomes table held
  have hcalls : ∀ row ∈ calls, row.Fits := by
    intro row hrow
    exact hfits row (List.mem_append_left _ hrow)
  have hlater : ∀ row ∈ later, row.Fits := by
    intro row hrow
    exact hfits row (List.mem_append_right _ hrow)
  -- Which of the calls so far succeeded was settled without the later ones.
  have haccepted : accepted calls outcomes = accepted calls (empty.insertAll calls).2 := by
    simp only [outcomes, insertAll_append]
    exact accepted_append_outcomes (length_insertAll _ _).symm _
  have hstores : table.Stores (accepted calls outcomes) := by
    rw [haccepted]
    exact stores_empty.insertAll hcalls
  have hrows : table.rows = .ok held := hstores.rows_eq
  have hlength : held.length = (accepted calls outcomes).length := List.length_map ..
  refine ⟨?_, hrows, ?_, ?_, ?_, ?_, ?_, ?_, ?_⟩
  · intro i hi
    have houtcome := stores_empty.outcome_insertAll hfits hi
    rwa [List.length_nil, Nat.zero_add] at houtcome
  · rw [hlength, hstores.len_eq]
  · rw [hstores.isEmpty_iff, List.map_eq_nil_iff]
  · rw [hstores.isFull_iff, hlength, maxRows_eq]
  · rw [hlength, hstores.remaining_start]
  · rw [hrows]
    rfl
  · rw [hrows]
    rfl
  · refine ⟨(accepted later (table.insertAll later).2).map Row.stored, ?_⟩
    rw [insertAll_append, (hstores.insertAll hlater).rows_eq, List.map_append]

/-- A username that holds a NUL is read back up to it, also after a later insertion. -/
theorem insertAll_cuts_at_nul :
    (∀ row ∈ [(⟨1, "ann\x00x", "a@b"⟩ : Row)] ++ [⟨2, "bob", ""⟩], row.Fits) ∧
    (empty.insertAll [⟨1, "ann\x00x", "a@b"⟩]).1.rows = .ok [⟨1, "ann", "a@b"⟩] ∧
    ∃ more, (empty.insertAll ([⟨1, "ann\x00x", "a@b"⟩] ++ [⟨2, "bob", ""⟩])).1.rows =
      .ok (⟨1, "ann", "a@b"⟩ :: more) := by
  have hfits : ∀ row ∈ [(⟨1, "ann\x00x", "a@b"⟩ : Row)] ++ [⟨2, "bob", ""⟩], row.Fits := by decide
  obtain ⟨houtcome, hrows, -, -, -, -, -, -, hmore⟩ := insertAll_refines_boundedList _ _ hfits
  have hfirst := houtcome 0 (by decide)
  have hheld : (accepted [(⟨1, "ann\x00x", "a@b"⟩ : Row)]
      (empty.insertAll ([⟨1, "ann\x00x", "a@b"⟩] ++ [⟨2, "bob", ""⟩])).2).map Row.stored =
        [⟨1, "ann", "a@b"⟩] := by
    obtain ⟨outcomes, hcons⟩ : ∃ outcomes, (empty.insertAll ([⟨1, "ann\x00x", "a@b"⟩] ++
        [⟨2, "bob", ""⟩])).2 = .ok () :: outcomes := by
      cases hlist : (empty.insertAll ([⟨1, "ann\x00x", "a@b"⟩] ++ [⟨2, "bob", ""⟩])).2 with
      | nil => rw [hlist] at hfirst; cases hfirst
      | cons outcome outcomes =>
          rw [hlist] at hfirst
          exact ⟨outcomes, by rw [Option.some.inj hfirst]; rfl⟩
    rw [hcons, accepted_cons_ok]
    cbv
  rw [hheld] at hrows hmore
  exact ⟨hfits, hrows, hmore⟩

end Table

end RowStore
