import RowStore.Text.Ranges

/-! # Search trees of ranges

A long table of ranges is looked up in a search tree, which takes one comparison
or two at each level. Main statement: the tree of a table that ascends answers
what the table answers.
-/

namespace RowStore.Text

/-- A range stands between the ranges before it and the ranges behind it. -/
inductive RangeTree where
  | empty
  | node (left : RangeTree) (first last : Nat) (right : RangeTree)

namespace RangeTree

/-- Whether a code point is in one of the ranges. -/
def contains : RangeTree → Nat → Bool
  | empty, _ => false
  | node left first last right, n =>
    if n < first then left.contains n else n ≤ last || right.contains n

/-- The ranges in order. -/
def toList : RangeTree → Ranges
  | empty => []
  | node left first last right => left.toList ++ (first, last) :: right.toList

/-- A tree of at most this height from the first ranges of a table, and the
ranges that it has no room for. -/
def grow : Nat → Ranges → RangeTree × Ranges
  | 0, ranges => (empty, ranges)
  | height + 1, ranges =>
    match grow height ranges with
    | (left, []) => (left, [])
    | (left, (first, last) :: later) =>
      let grown := grow height later
      (node left first last grown.1, grown.2)

/-- The tree of all ranges of a table. A tree has room for one range less than
the power of two of its height. -/
def ofRanges (ranges : Ranges) : RangeTree :=
  (grow (ranges.length.log2 + 1) ranges).1

theorem toList_grow (height : Nat) (ranges : Ranges) :
    (grow height ranges).1.toList ++ (grow height ranges).2 = ranges := by
  induction height generalizing ranges with
  | zero => rfl
  | succ height ih =>
    have hleft := ih ranges
    simp only [grow]
    split
    next left heq => simpa [heq] using hleft
    next left first last later heq =>
      rw [heq] at hleft
      simp only [toList, List.append_assoc, List.cons_append, ih later]
      exact hleft

theorem length_grow (height : Nat) (ranges : Ranges) :
    (grow height ranges).2.length = ranges.length - (Nat.pow 2 height - 1) := by
  induction height generalizing ranges with
  | zero => rfl
  | succ height ih =>
    have hleft := ih ranges
    have hpos : 0 < Nat.pow 2 height := Nat.pow_pos (by decide)
    have hpow : Nat.pow 2 (height + 1) = Nat.pow 2 height * 2 := rfl
    simp only [grow]
    split
    next left heq =>
      simp only [heq, List.length_nil] at hleft ⊢
      omega
    next left first last later heq =>
      simp only [heq, List.length_cons, ih later] at hleft ⊢
      omega

@[simp] theorem toList_ofRanges (ranges : Ranges) : (ofRanges ranges).toList = ranges := by
  have hrest := length_grow (ranges.length.log2 + 1) ranges
  have hlt : ranges.length < Nat.pow 2 (ranges.length.log2 + 1) := Nat.lt_log2_self
  rw [Nat.sub_eq_zero_of_le (by omega), List.length_eq_zero_iff] at hrest
  have hgrow := toList_grow (ranges.length.log2 + 1) ranges
  rwa [hrest, List.append_nil] at hgrow

theorem contains_eq_of_ascendFrom {previous : Nat} {tree : RangeTree}
    (h : tree.toList.AscendFrom previous) (n : Nat) :
    tree.contains n = tree.toList.contains n := by
  induction tree generalizing previous with
  | empty => rfl
  | node left first last right ihLeft ihRight =>
    obtain ⟨hleft, hright⟩ := Ranges.AscendFrom.of_append h
    rw [toList, Ranges.contains_append h, ← ihLeft hleft, ← ihRight hright, contains]

/-- The tree of a table that ascends answers what the table answers. -/
theorem contains_ofRanges {previous : Nat} {ranges : Ranges} (h : ranges.AscendFrom previous)
    (n : Nat) : (ofRanges ranges).contains n = ranges.contains n := by
  rw [contains_eq_of_ascendFrom (by rwa [toList_ofRanges]), toList_ofRanges]

end RangeTree

end RowStore.Text
