import RowStore.Slot

/-! # Rows that are written and read back

A row whose texts have room decides every byte of its slot, whatever was there
before, and the slot gives the row back up to the first NUL of each text. So
nothing is lost of the rows without a NUL, and they may be told apart by their
bytes.
-/

namespace RowStore

open Layout Text

namespace Row

/-- Neither text holds a NUL. -/
def NulFree (row : Row) : Prop :=
  '\x00' ∉ row.username.toList ∧ '\x00' ∉ row.email.toList

theorem stored_eq_self_iff {row : Row} : row.stored = row ↔ row.NulFree := by
  rw [NulFree, ← beforeNul_eq_self_iff, ← beforeNul_eq_self_iff]
  cases row
  simp only [stored, mk.injEq, true_and]

end Row

namespace Slot

/-- The bytes of a column before its first zero. -/
def textBytes (slot : Slot) (column : Column) : List UInt8 :=
  (slot.column column).takeWhile (· != 0)

theorem store_eq_ok_iff {old slot : Slot} {row : Row} :
    old.store row = (slot, .ok ()) ↔ row.Fits ∧ slot = ofRow row := by
  by_cases hfits : row.Fits
  · rw [store_of_fits old hfits]
    simp only [Prod.mk.injEq, and_true, hfits, true_and, eq_comm]
  · obtain ⟨breach, hbreach⟩ := old.store_of_not_fits hfits
    constructor
    · intro hstore
      rw [hstore] at hbreach
      cases hbreach
    · exact fun h => absurd h.1 hfits

/-- Writing a row breaks the rules just if it does not fit. -/
theorem store_breaches_iff {old : Slot} {row : Row} :
    (∃ breach, (old.store row).2 = .error breach) ↔ ¬ row.Fits := by
  constructor
  · rintro ⟨breach, hbreach⟩ hfits
    rw [store_of_fits old hfits] at hbreach
    cases hbreach
  · exact old.store_of_not_fits

/-- Rows without a NUL may be told apart by their bytes. -/
theorem ofRow_injective {row other : Row} (hfits : row.Fits) (hother : other.Fits)
    (hnul : row.NulFree) (hotherNul : other.NulFree) (h : ofRow row = ofRow other) :
    row = other := by
  rw [← Row.stored_eq_self_iff.mpr hnul, ← Row.stored_eq_self_iff.mpr hotherNul,
    ← row_ofRow hfits, ← row_ofRow hother, h]

/-- The bytes before the first zero of a column that was filled by a text are valid. -/
theorem decode?_textBytes {slot : Slot} {column : Column} {text : String}
    (h : slot.column column = padded column.width text) :
    Utf8.decode? (slot.textBytes column).toArray = some (beforeNul text) := by
  rw [textBytes, h, takeWhile_padded, Utf8.decode?_encode]

theorem toList_bytes_ofRow {row : Row} (h : row.Fits) :
    (ofRow row).bytes.toList =
      LittleEndian.encode idSize row.id.toNat ++ padded usernameSize row.username ++
        padded emailSize row.email := by
  rw [toList_bytes, column_id_ofRow, column_username_ofRow h, column_email_ofRow h]

/-- A row whose texts have room is accepted, and writing it succeeds and decides all bytes of a
slot. The slot gives back the number and each text up to its first NUL, read from valid bytes. So
it gives back the row just if there is no NUL in it, and then no other such row has these bytes. -/
theorem store_reads_back (id : UInt32) (username email : String)
    (husername : username.utf8ByteSize ≤ 32) (hemail : email.utf8ByteSize ≤ 255) :
    let row : Row := { id, username, email }
    Row.ofFields id username email = .ok row ∧
    ∃ slot : Slot,
      (∀ old : Slot, old.store row = (slot, .ok ())) ∧
      slot.bytes.toList =
        LittleEndian.encode 4 id.toNat ++ padded 32 username ++ padded 255 email ∧
      slot.row = { id, username := beforeNul username, email := beforeNul email } ∧
      (slot.row = row ↔ row.NulFree) ∧
      (row.NulFree → ∀ (old : Slot) (other : Row), other.NulFree →
        old.store other = (slot, .ok ()) → other = row) ∧
      Utf8.decode? (slot.textBytes .username).toArray = some (beforeNul username) ∧
      Utf8.decode? (slot.textBytes .email).toArray = some (beforeNul email) := by
  intro row
  have hfits : row.Fits := ⟨husername, hemail⟩
  have hrow : (ofRow row).row = row.stored := row_ofRow hfits
  refine ⟨Row.ofFields_eq_ok_iff.mpr ⟨rfl, hfits⟩, ofRow row, ?_, ?_, hrow, ?_, ?_, ?_, ?_⟩
  · intro old
    exact old.store_of_fits hfits
  · exact toList_bytes_ofRow hfits
  · rw [hrow]
    exact Row.stored_eq_self_iff
  · intro hnul old other hother hstore
    obtain ⟨hotherFits, hbytes⟩ := store_eq_ok_iff.mp hstore
    exact (ofRow_injective hfits hotherFits hnul hother hbytes).symm
  · exact decode?_textBytes (column_username_ofRow hfits)
  · exact decode?_textBytes (column_email_ofRow hfits)

/-- A username that fills its column up to the last byte of its last character, beside an email
that is cut. -/
theorem store_reads_back_full_width :
    ∃ slot : Slot,
      (∀ old : Slot, old.store ⟨4294967295, "username-of-twenty-nine-bytes\u20ac", "a\x00b"⟩ =
        (slot, .ok ())) ∧
      slot.row = ⟨4294967295, "username-of-twenty-nine-bytes\u20ac", "a"⟩ := by
  obtain ⟨-, slot, hstore, -, hrow, -⟩ :=
    store_reads_back 4294967295 "username-of-twenty-nine-bytes\u20ac" "a\x00b"
      (by decide) (by decide)
  have husername : beforeNul "username-of-twenty-nine-bytes\u20ac" =
      "username-of-twenty-nine-bytes\u20ac" := by decide +kernel
  have hemail : beforeNul "a\x00b" = "a" := by decide +kernel
  rw [husername, hemail] at hrow
  exact ⟨slot, hstore, hrow⟩

end Slot

end RowStore
