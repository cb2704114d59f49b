import RowStore.Layout
import RowStore.Fault
import RowStore.Text.BeforeNul

/-! # Rows

A row has a number and two texts. A row may be built whose texts are too long
for their columns, because reading a slot leniently can lengthen a text; a row
that a user states is checked first.
-/

namespace RowStore

/-- A record of the table. -/
structure Row where
  id : UInt32
  username : String
  email : String
deriving DecidableEq

namespace Row

/-- Both texts have room in their columns. -/
def Fits (row : Row) : Prop :=
  row.username.utf8ByteSize ≤ Layout.usernameSize ∧ row.email.utf8ByteSize ≤ Layout.emailSize

instance (row : Row) : Decidable row.Fits :=
  inferInstanceAs (Decidable (_ ∧ _))

/-- The row with these fields, if its texts have room. -/
def ofFields (id : UInt32) (username email : String) : Except Rejection Row :=
  let row : Row := { id, username, email }
  if row.Fits then .ok row else .error .textTooLong

/-- The row as it is read back: a text ends before its first NUL. -/
def stored (row : Row) : Row :=
  { row with username := Text.beforeNul row.username, email := Text.beforeNul row.email }

/-- The text that a listing shows. -/
def display (row : Row) : String :=
  "(" ++ Nat.repr row.id.toNat ++ ", " ++ row.username ++ ", " ++ row.email ++ ")"

theorem ofFields_eq_ok_iff {id : UInt32} {username email : String} {row : Row} :
    ofFields id username email = .ok row ↔ row = ⟨id, username, email⟩ ∧ row.Fits := by
  simp only [ofFields]
  split
  next hfits =>
    constructor
    · rintro ⟨⟩; exact ⟨rfl, hfits⟩
    · rintro ⟨rfl, _⟩; rfl
  next hfits =>
    constructor
    · rintro ⟨⟩
    · rintro ⟨rfl, h⟩; exact absurd h hfits

theorem not_fits_iff {row : Row} :
    ¬ row.Fits ↔ Layout.usernameSize < row.username.utf8ByteSize ∨
      Layout.emailSize < row.email.utf8ByteSize := by
  rw [Fits, Decidable.not_and_iff_or_not, Nat.not_le, Nat.not_le]

theorem ofFields_of_too_long (id : UInt32) {username email : String}
    (h : Layout.usernameSize < username.utf8ByteSize ∨ Layout.emailSize < email.utf8ByteSize) :
    ofFields id username email = .error .textTooLong :=
  if_neg (not_fits_iff.mpr h)

end Row

end RowStore
