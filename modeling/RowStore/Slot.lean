import RowStore.LittleEndian
import RowStore.Row

/-! # Slots

A slot is the fixed run of bytes that holds one row. It is divided into
columns. A text takes the first bytes of its column and zeros fill the rest; it
is read up to the first zero. Main statements: a write to a column is read back
from it, padded with zeros, and leaves the other columns alone; a row that fits
fills its slot whatever was there before, and is read back with its texts cut
before their first NUL.
-/

namespace RowStore

open Layout
open Text

/-- A run of bytes inside a slot. -/
structure Column where
  offset : Nat
  width : Nat
  offset_add_width_le : offset + width ≤ rowSize := by decide
deriving DecidableEq

namespace Column

/-- The column of the row number. -/
def id : Column := { offset := idOffset, width := idSize }

/-- The column of the username. -/
def username : Column := { offset := usernameOffset, width := usernameSize }

/-- The column of the email. -/
def email : Column := { offset := emailOffset, width := emailSize }

end Column

/-- The bytes of one row. -/
@[ext]
structure Slot where
  bytes : Vector UInt8 rowSize
deriving DecidableEq

namespace Slot

/-- A buffer as a slot, if it has the right size. -/
def ofBytes (bytes : List UInt8) : Except Breach Slot :=
  if h : bytes.length = rowSize then .ok ⟨⟨bytes.toArray, by simpa using h⟩⟩
  else .error (.bufferSize bytes.length)

/-- The cells of a column. -/
def cells (slot : Slot) (column : Column) : Array UInt8 :=
  slot.bytes.toArray.extract column.offset (column.offset + column.width)

/-- The bytes of a column. -/
def column (slot : Slot) (column : Column) : List UInt8 :=
  (slot.cells column).toList

/-- Overwrites a column by the given bytes and, where they end, zeros. -/
def fill (slot : Slot) (column : Column) (bytes : List UInt8) : Slot :=
  let cells := bytes.toArray
  ⟨.ofFn fun i =>
    if column.offset ≤ i.val ∧ i.val < column.offset + column.width then
      cells[i.val - column.offset]?.getD 0
    else slot.bytes[i.val]⟩

/-- Writes a text into its column. One that is too long breaks the rules and
nothing is written. -/
def putText (slot : Slot) (column : Column) (text : String) : Slot × Except Breach Unit :=
  let bytes := Utf8.encode text
  if column.width < bytes.length then (slot, .error (.columnOverflow column.width bytes.length))
  else (slot.fill column bytes, .ok ())

/-- A text and the zeros behind it that fill a column. -/
def padded (width : Nat) (text : String) : List UInt8 :=
  Utf8.encode text ++ List.replicate (width - text.utf8ByteSize) 0

/-- The text in a column, up to the first zero. -/
def text (slot : Slot) (column : Column) : String :=
  Utf8.decode ((slot.cells column).takeWhile (· != 0)).toList

/-- Writes a row, column by column. When a text is too long, the columns before
it have been written. -/
def store (slot : Slot) (row : Row) : Slot × Except Breach Unit :=
  let slot := slot.fill .id (LittleEndian.encode idSize row.id.toNat)
  match slot.putText .username row.username with
  | (slot, .error breach) => (slot, .error breach)
  | (slot, .ok ()) => slot.putText .email row.email

/-- The bytes of a row whose texts have room. -/
def ofRow (row : Row) : Slot :=
  (((⟨.replicate rowSize 0⟩ : Slot).fill .id (LittleEndian.encode idSize row.id.toNat)).fill
    .username (Utf8.encode row.username)).fill .email (Utf8.encode row.email)

/-- Reads a row. -/
def row (slot : Slot) : Row where
  id := UInt32.ofNat (LittleEndian.decode (slot.column .id))
  username := slot.text .username
  email := slot.text .email

/-! ## Columns -/

theorem getElem_fill (slot : Slot) (column : Column) (bytes : List UInt8) {i : Nat}
    (h : i < rowSize) :
    (slot.fill column bytes).bytes[i] =
      if column.offset ≤ i ∧ i < column.offset + column.width then
        bytes[i - column.offset]?.getD 0
      else slot.bytes[i] := by
  simp [fill]

@[simp] theorem length_column (slot : Slot) (column : Column) :
    (slot.column column).length = column.width := by
  have := column.offset_add_width_le
  simp only [Slot.column, cells, Array.length_toList, Array.size_extract, Vector.size_toArray]
  omega

theorem getElem_column (slot : Slot) (column : Column) {i : Nat}
    (h : i < (slot.column column).length) (hi : column.offset + i < rowSize) :
    (slot.column column)[i] = slot.bytes[column.offset + i] := by
  simp [Slot.column, cells]

/-- What was written to a column is read from it, padded with zeros. -/
theorem column_fill_self (slot : Slot) (column : Column) {bytes : List UInt8}
    (h : bytes.length ≤ column.width) :
    (slot.fill column bytes).column column =
      bytes ++ List.replicate (column.width - bytes.length) 0 := by
  have hwidth := column.offset_add_width_le
  apply List.ext_getElem
  · simp only [length_column, List.length_append, List.length_replicate]; omega
  · intro i hi _
    simp only [length_column] at hi
    rw [getElem_column _ _ _ (by omega), getElem_fill _ _ _ (by omega), if_pos (by omega)]
    simp only [Nat.add_sub_cancel_left, List.getElem_append]
    split
    next hlt => simp [hlt]
    next hge => simp [List.getElem?_eq_none (Nat.le_of_not_lt hge)]

/-- A write to a column leaves the columns before and after it alone. -/
theorem column_fill_of_disjoint (slot : Slot) {written other : Column} (bytes : List UInt8)
    (h : other.offset + other.width ≤ written.offset ∨
      written.offset + written.width ≤ other.offset) :
    (slot.fill written bytes).column other = slot.column other := by
  have hwidth := other.offset_add_width_le
  apply List.ext_getElem
  · simp
  · intro i hi _
    simp only [length_column] at hi
    rw [getElem_column _ _ _ (by omega), getElem_column _ _ _ (by omega),
      getElem_fill _ _ _ (by omega), if_neg (by omega)]

theorem column_eq_take (slot : Slot) (column : Column) :
    slot.column column = (slot.bytes.toList.drop column.offset).take column.width := by
  rw [Slot.column, cells, Array.toList_extract, List.extract_eq_take_drop, Nat.add_sub_cancel_left]
  rfl

/-- The columns are all there is in a slot. -/
theorem toList_bytes (slot : Slot) :
    slot.bytes.toList = slot.column .id ++ slot.column .username ++ slot.column .email := by
  have hemail : slot.column .email = slot.bytes.toList.drop emailOffset := by
    rw [column_eq_take, List.take_of_length_le]
    · rfl
    · rw [List.length_drop, Vector.length_toList]
      decide
  rw [column_eq_take _ .id, column_eq_take _ .username, hemail]
  exact (List.take_append_drop emailOffset _).symm.trans (congrArg (· ++ _) List.take_add)

theorem ext_column {slot other : Slot} (hid : slot.column .id = other.column .id)
    (husername : slot.column .username = other.column .username)
    (hemail : slot.column .email = other.column .email) : slot = other := by
  apply Slot.ext
  rw [← Vector.toList_inj, toList_bytes, toList_bytes, hid, husername, hemail]

/-- The text in a column is read from the bytes before the first zero. -/
theorem text_eq_decode_takeWhile (slot : Slot) (column : Column) :
    slot.text column = Utf8.decode ((slot.column column).takeWhile (· != 0)) := by
  rw [text, Array.toList_takeWhile, Slot.column]

/-! ## Rows -/

/-- A row that fits is written, and nothing of the old bytes is left. -/
theorem store_of_fits (slot : Slot) {row : Row} (h : row.Fits) :
    slot.store row = (ofRow row, .ok ()) := by
  obtain ⟨husername, hemail⟩ := h
  have hwritten : ((slot.fill .id (LittleEndian.encode idSize row.id.toNat)).fill
      .username (Utf8.encode row.username)).fill .email (Utf8.encode row.email) = ofRow row := by
    apply Slot.ext
    apply Vector.ext
    intro i hi
    simp only [ofRow, getElem_fill, Column.id, Column.username, Column.email]
    split
    next => rfl
    next hemail =>
      split
      next => rfl
      next husername =>
        split
        next => rfl
        next hid =>
          have hsize := rowSize_eq
          simp only [idOffset, usernameOffset, emailOffset, idSize, usernameSize, emailSize] at *
          omega
  simp only [store, putText, Utf8.length_encode, Column.username, Column.email] at *
  rw [if_neg (by omega)]
  simp only
  rw [if_neg (by omega), hwritten]

/-- A row that does not fit breaks the rules. -/
theorem store_of_not_fits (slot : Slot) {row : Row} (h : ¬ row.Fits) :
    ∃ breach, (slot.store row).2 = .error breach := by
  simp only [store, putText, Utf8.length_encode, Column.username, Column.email]
  by_cases husername : row.username.utf8ByteSize ≤ usernameSize
  · have hemail : emailSize < row.email.utf8ByteSize :=
      Nat.lt_of_not_le fun hemail => h ⟨husername, hemail⟩
    rw [if_neg (Nat.not_lt.mpr husername)]
    simp only [if_pos hemail]
    exact ⟨_, rfl⟩
  · rw [if_pos (Nat.lt_of_not_le husername)]
    exact ⟨_, rfl⟩

/-- The bytes before the first zero are those of the text before its first NUL. -/
theorem takeWhile_padded (width : Nat) (text : String) :
    (padded width text).takeWhile (· != 0) = Utf8.encode (beforeNul text) := by
  apply Utf8.takeWhile_encode
  cases width - text.utf8ByteSize <;> simp [List.replicate_succ]

/-- A text that has room fills its column. -/
theorem column_fill_encode (slot : Slot) (column : Column) {text : String}
    (h : text.utf8ByteSize ≤ column.width) :
    (slot.fill column (Utf8.encode text)).column column = padded column.width text := by
  rw [column_fill_self _ _ (by simpa using h), Utf8.length_encode, padded]

/-- What fills a column is read back up to its first NUL. -/
theorem text_of_column {slot : Slot} {column : Column} {text : String}
    (h : slot.column column = padded column.width text) : slot.text column = beforeNul text := by
  rw [text_eq_decode_takeWhile, h, takeWhile_padded, Utf8.decode_encode]

theorem column_id_ofRow (row : Row) :
    (ofRow row).column .id = LittleEndian.encode idSize row.id.toNat := by
  rw [ofRow, column_fill_of_disjoint _ _ (Or.inl (by decide)),
    column_fill_of_disjoint _ _ (Or.inl (by decide)), column_fill_self _ _ (by simp [Column.id])]
  simp [Column.id]

theorem column_username_ofRow {row : Row} (h : row.Fits) :
    (ofRow row).column .username = padded usernameSize row.username := by
  rw [ofRow, column_fill_of_disjoint _ _ (Or.inl (by decide))]
  exact column_fill_encode _ _ h.1

theorem column_email_ofRow {row : Row} (h : row.Fits) :
    (ofRow row).column .email = padded emailSize row.email :=
  column_fill_encode _ _ h.2

/-- A row that fits is read back, with its texts cut before their first NUL. -/
theorem row_ofRow {row : Row} (h : row.Fits) : (ofRow row).row = row.stored := by
  have hlt : row.id.toNat < Nat.pow 256 idSize := row.id.toNat_lt
  simp only [Slot.row, Row.stored, column_id_ofRow, LittleEndian.decode_encode hlt,
    UInt32.ofNat_toNat, text_of_column (column_username_ofRow h),
    text_of_column (column_email_ofRow h)]

end Slot

end RowStore
