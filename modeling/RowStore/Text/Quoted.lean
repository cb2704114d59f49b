import RowStore.Text.ExtendingMark
import RowStore.Text.Ignorable
import RowStore.Text.RangeTree
import RowStore.Text.Unprintable

/-! # Quoted text in log lines

A text stands between double quotes. The quote and the backslash are escaped by
a backslash, four control characters have a letter of their own, and every
other character that leaves no mark of its own on a line is written as its code
point, so a quoted text is one line whatever it holds. Main statement: the
characters written as code points are those of three tables.
-/

namespace RowStore.Text.Quoted

/-- The code points without a shape of their own, for looking up. -/
def unprintable : RangeTree := .ofRanges Unprintable.ranges

/-- The code points of the extending marks, for looking up. -/
def extending : RangeTree := .ofRanges ExtendingMark.ranges

/-- Whether a character is written as its code point: one that has no shape of
its own, that a display may leave out, or that joins the character before it. -/
def isHidden (c : Char) : Bool :=
  unprintable.contains c.toNat || Ignorable.ranges.contains c.toNat ||
    extending.contains c.toNat

/-- The written form of one character. -/
def encodeChar (c : Char) : List Char :=
  if c = '"' then ['\\', '"']
  else if c = '\\' then ['\\', '\\']
  else if c = '\x00' then ['\\', '0']
  else if c = '\t' then ['\\', 't']
  else if c = '\n' then ['\\', 'n']
  else if c = '\r' then ['\\', 'r']
  else if isHidden c then ['\\', 'u', '\x7b'] ++ Nat.toDigits 16 c.toNat ++ ['\x7d']
  else [c]

/-- The text between quotes. -/
def encode (text : String) : String :=
  String.ofList ('"' :: text.toList.flatMap encodeChar ++ ['"'])

/-- The characters written as code points are those of three tables. -/
theorem isHidden_iff (c : Char) :
    isHidden c = true ↔
      ∃ ranges ∈ [Unprintable.ranges, Ignorable.ranges, ExtendingMark.ranges],
        ∃ range ∈ ranges, range.1 ≤ c.toNat ∧ c.toNat ≤ range.2 := by
  rw [isHidden, unprintable, extending, RangeTree.contains_ofRanges Unprintable.ranges_ascend,
    RangeTree.contains_ofRanges ExtendingMark.ranges_ascend, Bool.or_eq_true, Bool.or_eq_true,
    Ranges.contains_iff Unprintable.ranges_ascend, Ranges.contains_iff Ignorable.ranges_ascend,
    Ranges.contains_iff ExtendingMark.ranges_ascend]
  simp only [List.mem_cons, List.not_mem_nil, or_false, exists_eq_or_imp, exists_eq_left, or_assoc]

end RowStore.Text.Quoted
