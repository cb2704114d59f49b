import RowStore.Text.Ranges

/-! # Characters that a display may leave out

A code point with the property `Default_Ignorable_Code_Point` in Unicode 17.0 is
shown as nothing unless a display has a use for it. Most of them are format
controls or marks. The four fillers of the Korean script, U+115F, U+1160, U+3164
and U+FFA0, are letters.
-/

namespace RowStore.Text.Ignorable

/-- The code points with the property. -/
def ranges : Ranges :=
  [(0xAD, 0xAD), (0x34F, 0x34F), (0x61C, 0x61C), (0x115F, 0x1160), (0x17B4, 0x17B5),
    (0x180B, 0x180F), (0x200B, 0x200F), (0x202A, 0x202E), (0x2060, 0x206F), (0x3164, 0x3164),
    (0xFE00, 0xFE0F), (0xFEFF, 0xFEFF), (0xFFA0, 0xFFA0), (0xFFF0, 0xFFF8), (0x1BCA0, 0x1BCA3),
    (0x1D173, 0x1D17A), (0xE0000, 0xE0FFF)]

theorem ranges_ascend : ranges.AscendFrom 0 := by decide

end RowStore.Text.Ignorable
