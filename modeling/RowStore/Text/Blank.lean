import RowStore.Text.Ranges

/-! # Blank characters

The characters with the Unicode property `White_Space`, and the two things that
are done with them: a line is trimmed of them at both ends, and it is cut into
words at them. Blanks beside each other cut only once, so no word is empty.
-/

namespace RowStore.Text.Blank

/-- The code points with the property. -/
def ranges : Ranges :=
  [(0x09, 0x0D), (0x20, 0x20), (0x85, 0x85), (0xA0, 0xA0), (0x1680, 0x1680), (0x2000, 0x200A),
    (0x2028, 0x2029), (0x202F, 0x202F), (0x205F, 0x205F), (0x3000, 0x3000)]

/-- Whether a character has the property. -/
def isBlank (c : Char) : Bool :=
  ranges.contains c.toNat

/-- The text without the blanks at its two ends. -/
def trim (text : String) : String :=
  String.ofList (((text.toList.dropWhile isBlank).reverse.dropWhile isBlank).reverse)

/-- The longest runs of characters that are not blank, in order. -/
def words (text : String) : List String :=
  ((text.toList.splitOnP isBlank).filter (!·.isEmpty)).map String.ofList

@[simp] theorem words_empty : words "" = [] := by
  simp [words]

end RowStore.Text.Blank
