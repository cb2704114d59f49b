/-! # Ranges of code points

A property of characters is a table of ranges. The ranges of a table ascend and
lie apart, so a look-up ends at the first range that starts behind the code
point. Main statement: in such a table the look-up finds the ranges that hold
the code point.
-/

namespace RowStore.Text

/-- Ranges of code points, both ends included. -/
abbrev Ranges := List (Nat × Nat)

namespace Ranges

/-- Whether a code point is in one of the ranges, which must ascend. -/
def contains : Ranges → Nat → Bool
  | [], _ => false
  | (first, last) :: ranges, n => first ≤ n && (n ≤ last || contains ranges n)

/-- Every range starts behind `previous` and behind the range before it. -/
def AscendFrom (previous : Nat) : Ranges → Prop
  | [] => True
  | (first, last) :: ranges => previous ≤ first ∧ first ≤ last ∧ AscendFrom (last + 1) ranges

instance decidableAscendFrom (previous : Nat) :
    (ranges : Ranges) → Decidable (AscendFrom previous ranges)
  | [] => inferInstanceAs (Decidable True)
  | (_, last) :: ranges =>
    have := decidableAscendFrom (last + 1) ranges
    inferInstanceAs (Decidable (_ ∧ _ ∧ _))

theorem AscendFrom.le_of_mem {previous : Nat} {ranges : Ranges} (h : AscendFrom previous ranges)
    {range : Nat × Nat} (hmem : range ∈ ranges) : previous ≤ range.1 := by
  induction ranges generalizing previous with
  | nil => cases hmem
  | cons head tail ih =>
    obtain ⟨hprevious, hle, htail⟩ := h
    rcases List.mem_cons.mp hmem with rfl | hmem
    · exact hprevious
    · have := ih htail hmem
      omega

/-- In a table that ascends, the look-up finds the ranges that hold a code
point. -/
theorem contains_iff {previous : Nat} {ranges : Ranges} (h : AscendFrom previous ranges)
    {n : Nat} : ranges.contains n = true ↔ ∃ range ∈ ranges, range.1 ≤ n ∧ n ≤ range.2 := by
  induction ranges generalizing previous with
  | nil => simp [contains]
  | cons head tail ih =>
    obtain ⟨first, last⟩ := head
    obtain ⟨_, hle, htail⟩ := h
    simp only [contains, Bool.and_eq_true, Bool.or_eq_true, decide_eq_true_eq, ih htail,
      List.mem_cons, exists_eq_or_imp]
    constructor
    · rintro ⟨hfirst, hlast | hrest⟩
      · exact Or.inl ⟨hfirst, hlast⟩
      · exact Or.inr hrest
    · rintro (⟨hfirst, hlast⟩ | ⟨range, hmem, hrange⟩)
      · exact ⟨hfirst, Or.inl hlast⟩
      · have := htail.le_of_mem hmem
        exact ⟨by omega, Or.inr ⟨range, hmem, hrange⟩⟩

/-- The parts of a table before and behind one of its ranges ascend. -/
theorem AscendFrom.of_append {previous first last : Nat} {before behind : Ranges}
    (h : AscendFrom previous (before ++ (first, last) :: behind)) :
    AscendFrom previous before ∧ AscendFrom (last + 1) behind := by
  induction before generalizing previous with
  | nil => exact ⟨trivial, h.2.2⟩
  | cons head tail ih =>
    obtain ⟨hprevious, hle, htail⟩ := h
    exact ⟨⟨hprevious, hle, (ih htail).1⟩, (ih htail).2⟩

/-- One range of a table that ascends tells on which side of it to look. -/
theorem contains_append {previous first last : Nat} {before behind : Ranges}
    (h : AscendFrom previous (before ++ (first, last) :: behind)) (n : Nat) :
    contains (before ++ (first, last) :: behind) n =
      if n < first then before.contains n else n ≤ last || behind.contains n := by
  induction before generalizing previous with
  | nil =>
    by_cases hlt : n < first
    · simp [contains, hlt, Nat.not_le_of_lt hlt]
    · simp [contains, hlt, Nat.le_of_not_lt hlt]
  | cons head tail ih =>
    obtain ⟨_, hle, htail⟩ := h
    have hbelow := htail.le_of_mem (List.mem_append_right tail List.mem_cons_self)
    simp only [List.cons_append, contains, ih htail]
    by_cases hlt : n < first
    · simp only [if_pos hlt]
    · have hhead : head.1 ≤ n := by simp only at hle hbelow; omega
      have hlast : ¬n ≤ head.2 := by simp only at hle hbelow; omega
      simp [hlt, hhead, hlast]

end Ranges

end RowStore.Text
