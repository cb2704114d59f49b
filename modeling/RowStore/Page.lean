import RowStore.Slot

/-! # Pages

A page is a block of bytes that holds slots side by side from its start. The
bytes after the last whole slot are never used. Main statement: a slot that was
put is read back, and the other slots are as they were.
-/

namespace RowStore

open Layout

/-- A block of slots. -/
@[ext]
structure Page where
  bytes : Vector UInt8 pageSize
deriving DecidableEq

namespace Page

/-- A new page is all zeros. -/
def blank : Page := ⟨.replicate pageSize 0⟩

/-- The slot with this index, which must lie inside the page. -/
def slot (page : Page) (index : Nat) : Except Breach Slot :=
  if h : index * rowSize + rowSize ≤ pageSize then
    .ok ⟨⟨page.bytes.toArray.extract (index * rowSize) (index * rowSize + rowSize), by
      simp only [Array.size_extract, Vector.size_toArray]; omega⟩⟩
  else .error (.outsidePage index)

/-- The page with one slot replaced. -/
def put (page : Page) (index : Nat) (slot : Slot) : Page :=
  ⟨.ofFn fun i =>
    if h : index * rowSize ≤ i.val ∧ i.val < index * rowSize + rowSize then
      slot.bytes[i.val - index * rowSize]
    else page.bytes[i.val]⟩

theorem slot_eq_ok {page : Page} {index : Nat} (h : index < rowsPerPage) :
    ∃ slot, page.slot index = .ok slot :=
  ⟨_, dif_pos (mul_rowSize_add_le h)⟩

theorem getElem_put (page : Page) (index : Nat) (slot : Slot) {i : Nat} (hi : i < pageSize) :
    (page.put index slot).bytes[i] =
      if h : index * rowSize ≤ i ∧ i < index * rowSize + rowSize then
        slot.bytes[i - index * rowSize]
      else page.bytes[i] := by
  simp [put]

/-- A slot that was put is read back. -/
theorem slot_put_self (page : Page) {index : Nat} (slot : Slot) (h : index < rowsPerPage) :
    (page.put index slot).slot index = .ok slot := by
  rw [Page.slot, dif_pos (mul_rowSize_add_le h)]
  refine congrArg Except.ok (Slot.ext (Vector.ext fun i hi => ?_))
  simp only [Vector.getElem_mk, Array.getElem_extract, Vector.getElem_toArray, getElem_put]
  rw [dif_pos (by omega)]
  simp

/-- Putting a slot leaves the other slots as they were. -/
theorem slot_put_of_ne (page : Page) {index other : Nat} (slot : Slot) (h : other ≠ index) :
    (page.put index slot).slot other = page.slot other := by
  unfold Page.slot
  split
  next hfit =>
    refine congrArg Except.ok (Slot.ext (Vector.ext fun i hi => ?_))
    simp only [Vector.getElem_mk, Array.getElem_extract, Vector.getElem_toArray, getElem_put]
    rw [dif_neg]
    simp only [rowSize_eq] at hi ⊢
    omega
  next => rfl

end Page

end RowStore
