import RowStore.Proofs.Session.Growth
import RowStore.Proofs.Slot.RoundTrip

/-! # Where rows come from

The texts of a row are words of the line that stated it, and lose there what is
behind a NUL. So of the rows that a table gives back, none holds a blank or a
NUL, none has the number zero, and the texts of each have room. Nothing else is
ruled out. Even an empty text occurs, which is no word: it is what is left of a
word that begins with a NUL.
-/

namespace RowStore

open Text

/-! ## Cut texts -/

namespace Text

theorem exists_eq_beforeNul_append (text : String) : ∃ rest, text = beforeNul text ++ rest := by
  refine ⟨String.ofList (text.toList.dropWhile (· != '\x00')), ?_⟩
  rw [beforeNul, ← String.ofList_append, List.takeWhile_append_dropWhile, String.ofList_toList]

theorem utf8ByteSize_beforeNul_le (text : String) :
    (beforeNul text).utf8ByteSize ≤ text.utf8ByteSize := by
  obtain ⟨rest, htext⟩ := exists_eq_beforeNul_append text
  have hsize := congrArg String.utf8ByteSize htext
  rw [String.utf8ByteSize_append] at hsize
  omega

theorem solid_beforeNul {text : String} (h : Blank.Solid text) : Blank.Solid (beforeNul text) := by
  obtain ⟨rest, htext⟩ := exists_eq_beforeNul_append text
  intro c hc
  apply h c
  rw [htext, String.toList_append]
  exact List.mem_append_left _ hc

end Text

/-! ## Rows that a line can state -/

namespace Row

/-- The row can be stated by a line, as far as its number, its sizes and its blanks go. -/
structure Plain (row : Row) : Prop where
  pos : 1 ≤ row.id.toNat
  fits : row.Fits
  username : Blank.Solid row.username
  email : Blank.Solid row.email

/-- A row that a table can give back. -/
structure Storable (row : Row) : Prop extends row.Plain where
  nulFree : row.NulFree

/-- No text of the row is empty. -/
def Complete (row : Row) : Prop :=
  row.username ≠ "" ∧ row.email ≠ ""

instance (row : Row) : Decidable row.Complete :=
  inferInstanceAs (Decidable (_ ∧ _))

theorem Plain.stored {row : Row} (h : row.Plain) : row.stored.Storable where
  pos := h.pos
  fits := ⟨Nat.le_trans (utf8ByteSize_beforeNul_le _) h.fits.1,
    Nat.le_trans (utf8ByteSize_beforeNul_le _) h.fits.2⟩
  username := solid_beforeNul h.username
  email := solid_beforeNul h.email
  nulFree := ⟨nul_not_mem_beforeNul _, nul_not_mem_beforeNul _⟩

theorem storable_of_mem_map_stored {rows : List Row} (h : ∀ row ∈ rows, row.Plain) :
    ∀ row ∈ rows.map stored, row.Storable := by
  intro row hrow
  obtain ⟨stated, hstated, rfl⟩ := List.mem_map.mp hrow
  exact (h stated hstated).stored

/-- The line that states a row. -/
def insertion (row : Row) : String :=
  "insert " ++ Nat.repr row.id.toNat ++ " " ++ row.username ++ " " ++ row.email

theorem words_insertion (row : Row) :
    Blank.words row.insertion =
      "insert" :: Nat.repr row.id.toNat :: (Blank.words row.username ++ Blank.words row.email) := by
  have hkeyword : Blank.words "insert" = ["insert"] := by decide +kernel
  have hspace : "insert " = "insert" ++ " " := by decide
  rw [insertion, hspace, Blank.words_append_space, Blank.words_append_space,
    Blank.words_append_space, hkeyword, Blank.words_repr, List.append_assoc]
  rfl

/-- A line with the words of the one that states a row is parsed to the row, unless a text is empty:
then there are too few words. -/
theorem Plain.parse_eq {row : Row} (h : row.Plain) {line : String}
    (hwords : Blank.words line = Blank.words row.insertion) :
    Statement.parse line = if row.Complete then .ok (.insert row) else .error .malformed := by
  rw [words_insertion, Blank.words_of_solid h.username, Blank.words_of_solid h.email] at hwords
  apply Statement.Grammar.parse_eq
  rw [hwords]
  by_cases hcomplete : row.Complete
  · rw [if_pos hcomplete, if_neg hcomplete.1, if_neg hcomplete.2]
    exact .insert (Numeral.states_repr _) h.pos h.fits.1 h.fits.2
  · -- An empty text is no word, so there are at most two arguments.
    rw [if_neg hcomplete]
    refine .insertArguments ?_
    rcases Decidable.not_and_iff_or_not.mp hcomplete with husername | hemail
    · rw [if_pos (Decidable.not_not.mp husername)]
      split <;> simp
    · rw [if_pos (Decidable.not_not.mp hemail)]
      split <;> simp

theorem Plain.not_isCommand {row : Row} (h : row.Plain) {line : String}
    (hwords : Blank.words line = Blank.words row.insertion) :
    ¬ Response.isCommand line = true := by
  apply mt Statement.parse_of_isCommand
  rw [h.parse_eq hwords]
  split <;> simp

theorem Plain.ne_exitCommand {row : Row} (h : row.Plain) {line : String}
    (hwords : Blank.words line = Blank.words row.insertion) : line ≠ Response.exitCommand :=
  Response.ne_exitCommand (h.not_isCommand hwords)

/-- What answers the line that states a row, while there is room. -/
def reply (row : Row) : String :=
  if row.Complete then Response.executed else Rejection.malformed.message ++ "\n"

end Row

/-- While there is room, the line that states a row appends it, unless a text is empty. -/
theorem Table.Stores.respond_insertion {table : Table} {held : List Row} (h : table.Stores held)
    (hroom : held.length < Layout.maxRows) {row : Row} (hplain : row.Plain) {line : String}
    (hwords : Blank.words line = Blank.words row.insertion) :
    (table.respond (some line)).table.Stores (held ++ [row].filter (·.Complete)) ∧
      String.join (table.respond (some line)).text = row.reply := by
  have hline := hplain.ne_exitCommand hwords
  have hcommand := hplain.not_isCommand hwords
  have hparse := hplain.parse_eq hwords
  rw [Row.reply]
  by_cases hcomplete : row.Complete
  · rw [if_pos hcomplete] at hparse ⊢
    rw [respond_of_ok hline hcommand hparse, h.ofStatement_insert hroom _ hplain.fits,
      join_singleton, List.filter_cons_of_pos (by simpa using hcomplete)]
    exact ⟨(h.insert hroom hplain.fits).2, rfl⟩
  · rw [if_neg hcomplete] at hparse ⊢
    rw [respond_of_error hline hcommand hparse, Response.reject, join_singleton,
      List.filter_cons_of_neg (by simpa using hcomplete), List.filter_nil, List.append_nil]
    exact ⟨h, rfl⟩

theorem Statement.plain_of_parse {line : String} {row : Row}
    (h : Statement.parse line = .ok (.insert row)) : row.Plain := by
  have hgrammar := (Statement.parse_eq_iff (Blank.splits_words line)).mp h
  obtain ⟨value, ⟨number, hwords, -⟩, hpos, -, husername, hemail, rfl⟩ :=
    Statement.grammar_insert_iff.mp hgrammar
  have hsolid : ∀ word ∈ ["insert", number, row.username, row.email], Blank.Solid word := by
    intro word hword
    rw [← hwords] at hword
    exact Blank.solid_of_mem_words hword
  exact ⟨Int.ofNat_le.mp hpos, ⟨husername, hemail⟩, hsolid _ (by simp), hsolid _ (by simp)⟩

/-! ## Rows of a table -/

namespace Table

/-- The rows that were appended to a table were stated by lines. -/
theorem Reachable.exists_plain {table : Table} (h : table.Reachable) :
    ∃ rows, table.Stores rows ∧ ∀ row ∈ rows, row.Plain := by
  apply h.invariant ⟨[], stores_empty, fun row hrow => absurd hrow List.not_mem_nil⟩
  rintro table line ⟨rows, hstores, hplain⟩
  rcases table.respond_cases line with ⟨row, hline, hfits, htable⟩ | ⟨-, htable⟩
  · rw [htable]
    rcases Nat.lt_or_eq_of_le hstores.length_le with hroom | hfull
    · refine ⟨rows ++ [row], (hstores.insert hroom hfits).2, ?_⟩
      intro stated hstated
      rcases List.mem_append.mp hstated with hold | hnew
      · exact hplain stated hold
      · obtain ⟨text, -, hparse⟩ := Option.map_eq_some_iff.mp hline
        rw [List.mem_singleton.mp hnew]
        exact Statement.plain_of_parse hparse
    · rw [hstores.insert_of_full hfull]
      exact ⟨rows, hstores, hplain⟩
  · rw [htable]
    exact ⟨rows, hstores, hplain⟩

/-- The rows that a table gives back. -/
theorem Reachable.exists_storable {table : Table} (h : table.Reachable) :
    ∃ rows, table.rows = .ok rows ∧ rows.length = table.len ∧ rows.length ≤ Layout.maxRows ∧
      ∀ row ∈ rows, row.Storable := by
  obtain ⟨rows, hstores, hplain⟩ := h.exists_plain
  refine ⟨rows.map Row.stored, hstores.rows_eq, ?_, ?_, Row.storable_of_mem_map_stored hplain⟩
  · rw [List.length_map, hstores.len_eq]
  · rw [List.length_map]
    exact hstores.length_le

end Table

/-! ## Tables for a row -/

namespace Text

/-- A word that is read back as this text, if there is no NUL in it. -/
def stating (text : String) : String :=
  if text = "" then "\x00" else text

theorem stating_ne_empty (text : String) : stating text ≠ "" := by
  unfold stating
  split
  next => decide
  next hne => exact hne

theorem beforeNul_stating {text : String} (h : '\x00' ∉ text.toList) :
    beforeNul (stating text) = text := by
  unfold stating
  split
  next hempty =>
    rw [hempty]
    decide +kernel
  next => exact beforeNul_eq_self_iff.mpr h

theorem solid_stating {text : String} (h : Blank.Solid text) : Blank.Solid (stating text) := by
  unfold stating
  split
  next => decide
  next => exact h

theorem utf8ByteSize_stating_le {text : String} {width : Nat} (hpos : 0 < width)
    (h : text.utf8ByteSize ≤ width) : (stating text).utf8ByteSize ≤ width := by
  unfold stating
  split
  next => exact hpos
  next => exact h

end Text

/-- A line can bring any such row into a table. -/
theorem Row.Storable.exists_reachable {row : Row} (h : row.Storable) :
    ∃ table : Table, table.Reachable ∧ table.rows = .ok [row] := by
  let stated : Row := { row with username := stating row.username, email := stating row.email }
  have hplain : stated.Plain :=
    ⟨h.pos, ⟨utf8ByteSize_stating_le (by decide) h.fits.1,
      utf8ByteSize_stating_le (by decide) h.fits.2⟩,
      solid_stating h.username, solid_stating h.email⟩
  have hcomplete : stated.Complete := ⟨stating_ne_empty _, stating_ne_empty _⟩
  have hstored : stated.stored = row := by
    cases row
    simp only [stated, Row.stored, beforeNul_stating h.nulFree.1, beforeNul_stating h.nulFree.2]
  obtain ⟨hstores, -⟩ := Table.stores_empty.respond_insertion (by decide) hplain rfl
  rw [List.filter_cons_of_pos (by simpa using hcomplete)] at hstores
  refine ⟨_, .step .empty (some stated.insertion) ({} : Recorder), ?_⟩
  rw [← hstored]
  exact hstores.rows_eq

end RowStore
