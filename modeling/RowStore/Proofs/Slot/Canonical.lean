import RowStore.Proofs.Slot.RoundTrip
import RowStore.Proofs.Text.Lenient

/-! # The canonical form of a slot

Any bytes are read as a row. Writing that row again gives the canonical form of
the bytes, which is read as the same row and is its own canonical form: each
text is valid, and only zeros are behind it. Reading can lengthen a text beyond
its column, by a replacement character for fewer bytes; then the row cannot be
written.
-/

namespace RowStore

open Layout Text

namespace Slot

/-- A column holds a valid text, and only zeros behind it. -/
def Tidy (slot : Slot) (column : Column) : Prop :=
  (Utf8.decode? (slot.textBytes column).toArray).isSome ∧
    ∀ byte ∈ (slot.column column).dropWhile (· != 0), byte = 0

theorem text_eq_decode (slot : Slot) (column : Column) :
    slot.text column = Utf8.decode (slot.textBytes column) :=
  slot.text_eq_decode_takeWhile column

theorem textBytes_append (slot : Slot) (column : Column) :
    slot.textBytes column ++ (slot.column column).dropWhile (· != 0) = slot.column column :=
  List.takeWhile_append_dropWhile

/-! ## Reading -/

theorem nul_not_mem_text (slot : Slot) (column : Column) :
    '\x00' ∉ (slot.text column).toList := by
  rw [text_eq_decode]
  apply Utf8.nul_not_mem_decode
  intro hzero
  have hne := List.all_eq_true.mp List.all_takeWhile _ hzero
  simp at hne

theorem nulFree_row (slot : Slot) : slot.row.NulFree :=
  ⟨slot.nul_not_mem_text .username, slot.nul_not_mem_text .email⟩

theorem length_textBytes_le (slot : Slot) (column : Column) :
    (slot.textBytes column).length ≤ column.width := by
  have hlength := congrArg List.length (slot.textBytes_append column)
  rw [List.length_append, length_column] at hlength
  omega

theorem encode_text_of_decode? {slot : Slot} {column : Column} {text : String}
    (h : Utf8.decode? (slot.textBytes column).toArray = some text) :
    slot.text column = text ∧ slot.textBytes column = Utf8.encode text := by
  have hbytes := Utf8.eq_encode_of_decode? h
  refine ⟨?_, hbytes⟩
  rw [text_eq_decode, hbytes, Utf8.decode_encode]

/-- A text is read that is longer than its column only if replacement characters were put in. -/
theorem invalid_of_width_lt (slot : Slot) (column : Column)
    (h : column.width < (slot.text column).utf8ByteSize) :
    Utf8.decode? (slot.textBytes column).toArray = none ∧
      Utf8.replacement ∈ (slot.text column).toList := by
  have hinvalid : Utf8.decode? (slot.textBytes column).toArray = none := by
    cases hdecode : Utf8.decode? (slot.textBytes column).toArray with
    | none => rfl
    | some text =>
        exfalso
        obtain ⟨htext, hbytes⟩ := encode_text_of_decode? hdecode
        have hle := slot.length_textBytes_le column
        rw [hbytes, Utf8.length_encode, ← htext] at hle
        omega
  refine ⟨hinvalid, ?_⟩
  rw [text_eq_decode]
  exact Utf8.replacement_mem_decode hinvalid

/-! ## Writing what was read -/

/-- A column is filled by the text that is read from it just if it is tidy. -/
theorem padded_text_eq_iff (slot : Slot) (column : Column) :
    padded column.width (slot.text column) = slot.column column ↔ slot.Tidy column := by
  constructor
  · intro h
    -- The text holds no NUL, so its bytes are those before the first zero.
    have hbytes : slot.textBytes column = Utf8.encode (slot.text column) := by
      rw [textBytes, ← h, takeWhile_padded,
        beforeNul_eq_self_iff.mpr (slot.nul_not_mem_text column)]
    refine ⟨?_, ?_⟩
    · rw [hbytes, Utf8.decode?_encode]
      rfl
    · have happend := slot.textBytes_append column
      rw [hbytes, ← h] at happend
      have hrest := List.append_cancel_left happend
      rw [← h, hrest]
      exact fun byte hbyte => List.eq_of_mem_replicate hbyte
  · rintro ⟨hvalid, hzeros⟩
    obtain ⟨text, hdecode⟩ := Option.isSome_iff_exists.mp hvalid
    obtain ⟨htext, hbytes⟩ := encode_text_of_decode? hdecode
    have happend := slot.textBytes_append column
    have hlength := congrArg List.length happend
    rw [List.length_append, length_column, hbytes, Utf8.length_encode] at hlength
    have hrest : (slot.column column).dropWhile (· != 0) =
        List.replicate (column.width - text.utf8ByteSize) 0 :=
      List.eq_replicate_iff.mpr ⟨by omega, hzeros⟩
    rw [htext, padded, ← hrest, ← hbytes, happend]

theorem encode_id_row (slot : Slot) :
    LittleEndian.encode idSize slot.row.id.toNat = slot.column .id := by
  have hlength : (slot.column .id).length = idSize := slot.length_column .id
  have hlt := LittleEndian.decode_lt (slot.column .id)
  rw [hlength] at hlt
  have hid : slot.row.id.toNat = LittleEndian.decode (slot.column .id) :=
    UInt32.toNat_ofNat_of_lt hlt
  rw [hid, ← hlength, LittleEndian.encode_decode]

theorem ofRow_row_eq_iff {slot : Slot} (hfits : slot.row.Fits) :
    ofRow slot.row = slot ↔ slot.Tidy .username ∧ slot.Tidy .email := by
  rw [← padded_text_eq_iff, ← padded_text_eq_iff]
  constructor
  · intro h
    refine ⟨?_, ?_⟩
    · exact (column_username_ofRow hfits).symm.trans (congrArg (·.column .username) h)
    · exact (column_email_ofRow hfits).symm.trans (congrArg (·.column .email) h)
  · rintro ⟨husername, hemail⟩
    apply ext_column
    · rw [column_id_ofRow, encode_id_row]
    · exact (column_username_ofRow hfits).trans husername
    · exact (column_email_ofRow hfits).trans hemail

/-- Any slot is read as a row without a NUL. Writing that row breaks the rules just if a text has
become longer than its column, for which bytes that are not valid must have been replaced.
Otherwise it gives the canonical form of the slot, whatever was there before: one that is read as
the same row, that is its own canonical form, and that is the slot itself just if both texts are
valid and only zeros are behind them. -/
theorem store_row_canonical (slot : Slot) :
    slot.row.NulFree ∧
    (∀ old : Slot, (∃ breach, (old.store slot.row).2 = .error breach) ↔
      32 < slot.row.username.utf8ByteSize ∨ 255 < slot.row.email.utf8ByteSize) ∧
    (32 < slot.row.username.utf8ByteSize →
      Utf8.decode? (slot.textBytes .username).toArray = none ∧
        Utf8.replacement ∈ slot.row.username.toList) ∧
    (255 < slot.row.email.utf8ByteSize →
      Utf8.decode? (slot.textBytes .email).toArray = none ∧
        Utf8.replacement ∈ slot.row.email.toList) ∧
    (slot.row.username.utf8ByteSize ≤ 32 → slot.row.email.utf8ByteSize ≤ 255 →
      ∃ canonical : Slot,
        (∀ old : Slot, old.store slot.row = (canonical, .ok ())) ∧
        canonical.row = slot.row ∧
        (∀ old : Slot, old.store canonical.row = (canonical, .ok ())) ∧
        (canonical = slot ↔ slot.Tidy .username ∧ slot.Tidy .email)) := by
  refine ⟨slot.nulFree_row, ?_, slot.invalid_of_width_lt .username,
    slot.invalid_of_width_lt .email, ?_⟩
  · intro old
    rw [store_breaches_iff, Row.not_fits_iff]
    rfl
  · intro husername hemail
    have hfits : slot.row.Fits := ⟨husername, hemail⟩
    have hrow : (ofRow slot.row).row = slot.row := by
      rw [row_ofRow hfits, Row.stored_eq_self_iff.mpr slot.nulFree_row]
    refine ⟨ofRow slot.row, ?_, hrow, ?_, ofRow_row_eq_iff hfits⟩
    · intro old
      exact old.store_of_fits hfits
    · intro old
      rw [hrow]
      exact old.store_of_fits hfits

end Slot

end RowStore
