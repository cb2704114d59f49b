import Mathlib.Data.List.Induction
import RowStore.Proofs.Table.Appending
import RowStore.Proofs.Table.Paging
import RowStore.Proofs.Table.Reading

/-! # Insertions that break a rule

A row whose text is longer than its column breaks a rule halfway through its
slot: the page has been allocated, and the columns before that text have been
written. A caller that goes on all the same finds the table as if the call had
not been made. The slot is not counted, so nothing reads it, and the next row
overwrites it. Only a page can tell, until that row comes.
-/

namespace RowStore

open Layout

namespace Table

/-- Whether a call broke a rule. -/
def isBreach : Except Fault Unit → Bool
  | .error (.breached _) => true
  | _ => false

/-- The call at this place broke a rule. -/
def BreaksAt (outcomes : List (Except Fault Unit)) (place : Nat) : Prop :=
  ∃ breach, outcomes[place]? = some (.error (.breached breach))

/-- The rows whose calls broke no rule. -/
def sparing (rows : List Row) (outcomes : List (Except Fault Unit)) : List Row :=
  ((rows.zip outcomes).filter (!isBreach ·.2)).map (·.1)

/-! ## One call -/

/-- A full table turns a row down before its texts are looked at. -/
theorem breaks_insert_iff {table : Table} {row : Row} :
    (∃ breach, (table.insert row).outcome = .error (.breached breach)) ↔
      table.isFull = false ∧ ¬ row.Fits := by
  have hroom : table.isFull = false ↔ table.len < maxRows := by simp [isFull]
  rw [hroom]
  rcases table.insert_cases row with ⟨-, hfits, hok, -⟩ | ⟨hlen, hfits, hbreach, -⟩ |
    ⟨hfull, hrejected, -⟩
  · exact iff_of_false (by simp [hok]) fun h => h.2 hfits
  · exact iff_of_true hbreach ⟨hlen, hfits⟩
  · exact iff_of_false (by simp [hrejected]) fun h => Nat.not_lt.mpr hfull h.1

/-- A call breaks a rule and leaves the rows alone, or it does the same to all tables that store
these rows. -/
theorem Stores.insert_alike {table other : Table} {held : List Row} (h : table.Stores held)
    (hother : other.Stores held) (row : Row) :
    isBreach (table.insert row).outcome = true ∧ (table.insert row).table.Stores held ∨
      isBreach (table.insert row).outcome = false ∧
        (other.insert row).outcome = (table.insert row).outcome ∧
        ∃ more, (table.insert row).table.Stores (held ++ more) ∧
          (other.insert row).table.Stores (held ++ more) := by
  rcases Nat.lt_or_eq_of_le h.length_le with hroom | hfull
  · by_cases hfits : row.Fits
    · obtain ⟨houtcome, hstores⟩ := h.insert hroom hfits
      obtain ⟨hotherOutcome, hotherStores⟩ := hother.insert hroom hfits
      rw [houtcome, hotherOutcome]
      exact Or.inr ⟨rfl, rfl, [row], hstores, hotherStores⟩
    · have hlen : table.len < maxRows := h.len_eq ▸ hroom
      obtain ⟨slot, breach, -, houtcome⟩ := Table.insert_of_not_fits hlen hfits
      rw [houtcome]
      exact Or.inl ⟨rfl, h.insert_of_not_fits hroom hfits⟩
  · rw [h.insert_of_full hfull, hother.insert_of_full hfull]
    refine Or.inr ⟨rfl, rfl, [], ?_, ?_⟩
    · rwa [List.append_nil]
    · rwa [List.append_nil]

/-! ## Sequences of calls -/

theorem sparing_cons_of_breach {outcome : Except Fault Unit} (h : isBreach outcome = true)
    (row : Row) (rows : List Row) (outcomes : List (Except Fault Unit)) :
    sparing (row :: rows) (outcome :: outcomes) = sparing rows outcomes := by
  rw [sparing, List.zip_cons_cons, List.filter_cons_of_neg (by simp [h]), sparing]

theorem sparing_cons_of_not_breach {outcome : Except Fault Unit} (h : isBreach outcome = false)
    (row : Row) (rows : List Row) (outcomes : List (Except Fault Unit)) :
    sparing (row :: rows) (outcome :: outcomes) = row :: sparing rows outcomes := by
  rw [sparing, List.zip_cons_cons, List.filter_cons_of_pos (by simp [h]), List.map_cons, sparing]

/-- Without the calls that broke a rule, the others end as they did, and lead to the same rows. -/
theorem Stores.insertAll_sparing {table other : Table} {held : List Row} (h : table.Stores held)
    (hother : other.Stores held) (rows : List Row) :
    (other.insertAll (sparing rows (table.insertAll rows).2)).2 =
        (table.insertAll rows).2.filter (!isBreach ·) ∧
      ∃ more, (table.insertAll rows).1.Stores (held ++ more) ∧
        (other.insertAll (sparing rows (table.insertAll rows).2)).1.Stores (held ++ more) := by
  induction rows generalizing table other held with
  | nil =>
      refine ⟨rfl, [], ?_, ?_⟩
      · rwa [List.append_nil]
      · rwa [List.append_nil]
  | cons row rows ih =>
      rw [Table.insertAll]
      rcases h.insert_alike hother row with ⟨hbreach, hstores⟩ | ⟨hbreach, houtcome, added, hstores,
        hotherStores⟩
      · -- The other table does not see this call, and goes on from where it is.
        rw [sparing_cons_of_breach hbreach, List.filter_cons_of_neg (by simp [hbreach])]
        exact ih hstores hother
      · obtain ⟨houtcomes, more, hall, hotherAll⟩ := ih hstores hotherStores
        rw [sparing_cons_of_not_breach hbreach, List.filter_cons_of_pos (by simp [hbreach]),
          Table.insertAll, houtcome, houtcomes]
        rw [List.append_assoc] at hall hotherAll
        exact ⟨rfl, added ++ more, hall, hotherAll⟩

/-- What a call ends with is decided by the calls before it. -/
theorem getElem?_insertAll (table : Table) {rows : List Row} {place : Nat}
    (hplace : place < rows.length) :
    (table.insertAll rows).2[place]? =
      some ((table.insertAll (rows.take place)).1.insert rows[place]).outcome := by
  have hrows : rows = rows.take place ++ rows[place] :: rows.drop (place + 1) := by
    rw [← List.drop_eq_getElem_cons hplace, List.take_append_drop]
  have hlength : (table.insertAll (rows.take place)).2.length = place := by
    rw [length_insertAll, List.length_take, Nat.min_eq_left (Nat.le_of_lt hplace)]
  calc (table.insertAll rows).2[place]?
      = (table.insertAll (rows.take place ++ rows[place] :: rows.drop (place + 1))).2[place]? := by
        rw [← hrows]
    _ = some ((table.insertAll (rows.take place)).1.insert rows[place]).outcome := by
        rw [insertAll_append, List.getElem?_append_right (Nat.le_of_eq hlength), hlength,
          Nat.sub_self]
        rfl

theorem sparing_append_outcomes {rows : List Row} {outcomes : List (Except Fault Unit)}
    (hlength : rows.length = outcomes.length) (later : List (Except Fault Unit)) :
    sparing rows (outcomes ++ later) = sparing rows outcomes := by
  rw [sparing, sparing, zip_append_outcomes hlength]

/-- What is left of the first calls comes first in what is left of all calls. -/
theorem sparing_take_isPrefix {calls : List Row} {outcomes : List (Except Fault Unit)}
    (hlength : calls.length = outcomes.length) (count : Nat) :
    sparing (calls.take count) outcomes <+: sparing calls outcomes := by
  have htake : (calls.take count).length = (outcomes.take count).length := by
    rw [List.length_take, List.length_take, hlength]
  have hzip : (calls.take count).zip outcomes = (calls.zip outcomes).take count := by
    calc (calls.take count).zip outcomes
        = (calls.take count).zip (outcomes.take count ++ outcomes.drop count) := by
          rw [List.take_append_drop]
      _ = (calls.take count).zip (outcomes.take count) := zip_append_outcomes htake _
      _ = (calls.zip outcomes).take count := by
          rw [List.zip_eq_zipWith, List.zip_eq_zipWith, List.take_zipWith]
  rw [sparing, sparing, hzip]
  exact ((List.take_prefix count _).filter _).map _

/-- After any number of calls, the table looks as if those that broke a rule had not been made. -/
theorem looksLike_insertAll_sparing (calls : List Row) (count : Nat) :
    (empty.insertAll (calls.take count)).1.LooksLike
      (empty.insertAll (sparing (calls.take count) (empty.insertAll calls).2)).1 := by
  have happend := empty.insertAll_append (calls.take count) (calls.drop count)
  rw [List.take_append_drop] at happend
  have hfirst : sparing (calls.take count) (empty.insertAll calls).2 =
      sparing (calls.take count) (empty.insertAll (calls.take count)).2 := by
    rw [happend]
    exact sparing_append_outcomes (length_insertAll _ _).symm _
  obtain ⟨-, more, hstores, hother⟩ :=
    stores_empty.insertAll_sparing stores_empty (calls.take count)
  rw [hfirst]
  exact hstores.looksLike hother

/-! ## The page that is left behind -/

/-- A call broke a rule when the table had so many rows. -/
def BreaksFrom (calls : List Row) (count : Nat) : Prop :=
  ∃ place, BreaksAt (empty.insertAll calls).2 place ∧
    (empty.insertAll (calls.take place)).1.len = count

theorem len_le_len_insert (table : Table) (row : Row) : table.len ≤ (table.insert row).table.len := by
  rcases table.insert_cases row with ⟨-, -, -, hlen⟩ | ⟨-, -, -, hlen⟩ | ⟨-, -, htable⟩
  · exact Nat.le_of_lt (Nat.lt_of_lt_of_eq (Nat.lt_succ_self _) hlen.symm)
  · exact Nat.le_of_eq hlen.symm
  · exact Nat.le_of_eq (congrArg len htable).symm

theorem len_le_len_insertAll (table : Table) (rows : List Row) :
    table.len ≤ (table.insertAll rows).1.len := by
  induction rows generalizing table with
  | nil => exact Nat.le_refl _
  | cons row rows ih => exact Nat.le_trans (table.len_le_len_insert row) (ih _)

theorem BreaksFrom.le {calls : List Row} {count : Nat} (h : BreaksFrom calls count) :
    count ≤ (empty.insertAll calls).1.len := by
  obtain ⟨place, -, rfl⟩ := h
  have happend := empty.insertAll_append (calls.take place) (calls.drop place)
  rw [List.take_append_drop] at happend
  rw [happend]
  exact len_le_len_insertAll _ _

theorem outcomes_concat (table : Table) (calls : List Row) (row : Row) :
    (table.insertAll (calls ++ [row])).2 =
      (table.insertAll calls).2 ++ [((table.insertAll calls).1.insert row).outcome] := by
  rw [insertAll_append]
  rfl

/-- The last call counts from the length that the calls before it led to. -/
theorem breaksFrom_concat_iff {calls : List Row} {row : Row} {count : Nat} :
    BreaksFrom (calls ++ [row]) count ↔ BreaksFrom calls count ∨
      (∃ breach, ((empty.insertAll calls).1.insert row).outcome = .error (.breached breach)) ∧
        (empty.insertAll calls).1.len = count := by
  have hlength := empty.length_insertAll calls
  unfold BreaksFrom BreaksAt
  rw [outcomes_concat]
  constructor
  · rintro ⟨place, ⟨breach, hbreach⟩, hcount⟩
    rcases Nat.lt_or_ge place calls.length with hlt | hge
    · rw [List.getElem?_append_left (hlength ▸ hlt)] at hbreach
      rw [List.take_append_of_le_length (Nat.le_of_lt hlt)] at hcount
      exact Or.inl ⟨place, ⟨breach, hbreach⟩, hcount⟩
    · rw [List.getElem?_append_right (hlength ▸ hge), List.getElem?_singleton] at hbreach
      split at hbreach
      next hzero =>
        obtain rfl : place = calls.length := by omega
        rw [List.take_left] at hcount
        exact Or.inr ⟨⟨breach, Option.some.inj hbreach⟩, hcount⟩
      next => cases hbreach
  · rintro (⟨place, ⟨breach, hbreach⟩, hcount⟩ | ⟨⟨breach, hbreach⟩, hcount⟩)
    · have hlt : place < (empty.insertAll calls).2.length :=
        (List.getElem?_eq_some_iff.mp hbreach).1
      refine ⟨place, ⟨breach, ?_⟩, ?_⟩
      · rw [List.getElem?_append_left hlt, hbreach]
      · rwa [List.take_append_of_le_length (Nat.le_of_lt (hlength ▸ hlt))]
    · refine ⟨calls.length, ⟨breach, ?_⟩, ?_⟩
      · rw [← hlength, List.getElem?_concat_length, hbreach]
      · rwa [List.take_left]

/-- A table that has just grown has seen no call that broke a rule. -/
theorem not_breaksFrom_concat_succ (calls : List Row) (row : Row) :
    ¬ BreaksFrom (calls ++ [row]) ((empty.insertAll calls).1.len + 1) := by
  rw [breaksFrom_concat_iff]
  rintro (hbreaks | ⟨-, hcount⟩)
  · exact Nat.not_succ_le_self _ hbreaks.le
  · exact absurd hcount (Nat.ne_of_lt (Nat.lt_succ_self _))

/-- The pages that the rows need are allocated, and the page of the next row as well if a call broke
a rule there. -/
def AllocatesFor (table : Table) (broken : Prop) : Prop :=
  (broken → table.Allocates (table.len / rowsPerPage + 1)) ∧
    (¬ broken → table.Allocates (pagesFor table.len))

/-- The page of the next row is allocated, whatever comes of the call and of those before it. -/
theorem AllocatesFor.insert {table : Table} {broken : Prop} (h : table.AllocatesFor broken)
    (hlen : table.len < maxRows) (row : Row) :
    (table.insert row).table.Allocates (table.len / rowsPerPage + 1) := by
  by_cases hbroken : broken
  · exact (h.1 hbroken).insert hlen (pagesFor_le_succ _) (Nat.le_refl _) row
  · exact (h.2 hbroken).insert hlen (Nat.le_refl _) (pagesFor_le_succ _) row

/-- A page without a row on it is there just if a call broke a rule on a table whose rows fill their
pages. -/
theorem AllocatesFor.allocatedPages_eq {table : Table} {broken : Prop}
    (h : table.AllocatesFor broken) :
    (table.len % 14 = 0 ∧ table.len < 1400 ∧ broken →
      table.allocatedPages = (table.len + 13) / 14 + 1) ∧
    (¬ (table.len % 14 = 0 ∧ table.len < 1400 ∧ broken) →
      table.allocatedPages = (table.len + 13) / 14) := by
  constructor
  · rintro ⟨hmod, -, hbroken⟩
    rw [(h.1 hbroken).allocatedPages_eq, rowsPerPage_eq]
    omega
  · intro hnot
    by_cases hbroken : broken
    · -- The page of the next row holds rows already, or it would be one too many.
      have hle := (h.1 hbroken).le_maxPages
      have hmod : table.len % 14 = 0 → ¬ table.len < 1400 := by
        intro hmod hlen
        exact hnot ⟨hmod, hlen, hbroken⟩
      rw [(h.1 hbroken).allocatedPages_eq]
      simp only [rowsPerPage_eq, maxPages] at hle ⊢
      omega
    · rw [(h.2 hbroken).allocatedPages_eq, pagesFor]

/-- After any calls, what is allocated is known from whether a call broke a rule when the table had
as many rows as now. -/
theorem insertAll_allocatesFor (calls : List Row) :
    (empty.insertAll calls).1.AllocatesFor (BreaksFrom calls (empty.insertAll calls).1.len) := by
  induction calls using List.reverseRecOn with
  | nil =>
      refine ⟨?_, fun _ => allocates_empty⟩
      rintro ⟨place, ⟨breach, hbreach⟩, -⟩
      cases hbreach
  | append_singleton calls row ih =>
      have hafter : (empty.insertAll (calls ++ [row])).1 =
          ((empty.insertAll calls).1.insert row).table := by
        rw [insertAll_append]
        rfl
      rw [hafter, AllocatesFor]
      rcases (empty.insertAll calls).1.insert_cases row with ⟨hlen, -, -, hlength⟩ |
        ⟨hlen, -, hbreach, hlength⟩ | ⟨-, hrejected, htable⟩
      · rw [hlength, pagesFor_succ]
        exact ⟨fun hbreaks => absurd hbreaks (not_breaksFrom_concat_succ calls row),
          fun _ => ih.insert hlen row⟩
      · rw [hlength, breaksFrom_concat_iff]
        exact ⟨fun _ => ih.insert hlen row, fun hnot => absurd (Or.inr ⟨hbreach, rfl⟩) hnot⟩
      · rw [htable, breaksFrom_concat_iff, hrejected]
        simpa [AllocatesFor] using ih

/-- What a call ends with, and what reading gives at any time, is the same without the calls that
broke a rule. A call breaks a rule just if there is room for its row and a text is longer than its
column. Only the number of pages can differ: it is one more than the rows need just if they fill
their pages, but not the table, and a call has broken a rule since. -/
theorem insertAll_hides_breaches (calls : List Row) :
    let outcomes := (empty.insertAll calls).2
    let table := (empty.insertAll calls).1
    (∀ (place : Nat) (hplace : place < calls.length),
      let before := (empty.insertAll (calls.take place)).1
      (BreaksAt outcomes place ↔ before.isFull = false ∧
        (32 < calls[place].username.utf8ByteSize ∨ 255 < calls[place].email.utf8ByteSize)) ∧
      (before.isFull = true → outcomes[place]? = some (.error (.rejected .tableFull)))) ∧
    (empty.insertAll (sparing calls outcomes)).2 = outcomes.filter (!isBreach ·) ∧
    (∀ count, sparing (calls.take count) outcomes <+: sparing calls outcomes ∧
      (empty.insertAll (calls.take count)).1.LooksLike
        (empty.insertAll (sparing (calls.take count) outcomes)).1) ∧
    (table.len % 14 = 0 ∧ table.len < 1400 ∧ BreaksFrom calls table.len →
      table.allocatedPages = (table.len + 13) / 14 + 1) ∧
    (¬ (table.len % 14 = 0 ∧ table.len < 1400 ∧ BreaksFrom calls table.len) →
      table.allocatedPages = (table.len + 13) / 14) := by
  intro outcomes table
  refine ⟨?_, ?_, ?_, (insertAll_allocatesFor calls).allocatedPages_eq⟩
  · intro place hplace before
    have houtcome : outcomes[place]? = some (before.insert calls[place]).outcome :=
      empty.getElem?_insertAll hplace
    rw [BreaksAt, houtcome]
    simp only [Option.some.injEq]
    refine ⟨?_, ?_⟩
    · rw [breaks_insert_iff, Row.not_fits_iff]
      rfl
    · intro hfull
      rw [insert_of_isFull (by simpa [isFull] using hfull)]
  · exact (stores_empty.insertAll_sparing stores_empty calls).1
  · intro count
    exact ⟨sparing_take_isPrefix (length_insertAll _ _).symm count,
      looksLike_insertAll_sparing calls count⟩

/-- The first call breaks a rule, and leaves a page behind on which no row lies. -/
theorem insertAll_hides_breaches_of_first_row :
    (empty.insertAll [⟨7, "a username of thirty-three bytes.", "a@b"⟩]).1.len = 0 ∧
    (empty.insertAll [⟨7, "a username of thirty-three bytes.", "a@b"⟩]).1.rows = .ok [] ∧
    (empty.insertAll [⟨7, "a username of thirty-three bytes.", "a@b"⟩]).1.allocatedPages = 1 := by
  obtain ⟨hcalls, -, hlooks, hpages, -⟩ :=
    insertAll_hides_breaches [⟨7, "a username of thirty-three bytes.", "a@b"⟩]
  have hbreaks := (hcalls 0 (by decide)).1.mpr ⟨rfl, Or.inl (by decide)⟩
  obtain ⟨breach, hbreach⟩ := hbreaks
  have hbroken : isBreach (empty.insert ⟨7, "a username of thirty-three bytes.", "a@b"⟩).outcome =
      true := by
    rw [Option.some.inj hbreach]
    rfl
  have hempty := (hlooks 1).2
  simp only [List.take_succ_cons, List.take_zero, insertAll, sparing_cons_of_breach hbroken] at hempty
  have hlen : (empty.insertAll [⟨7, "a username of thirty-three bytes.", "a@b"⟩]).1.len = 0 :=
    hempty.len_eq
  refine ⟨hlen, hempty.rows_eq.trans stores_empty.rows_eq, ?_⟩
  rw [hpages, hlen]
  rw [hlen]
  exact ⟨rfl, by decide, 0, ⟨breach, hbreach⟩, rfl⟩

end Table

end RowStore
