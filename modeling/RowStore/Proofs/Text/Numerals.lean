import RowStore.Text.Numeral

/-! # What numerals state

The integer of a numeral is said here by its form alone, without reading it.
-/

namespace RowStore.Text.Numeral

/-- A text is an optional sign and one or more digits, and it states this integer. -/
def States (text : String) (value : Int) : Prop :=
  ∃ digits, digits ≠ [] ∧ (∀ c ∈ digits, c.isDigit = true) ∧
    ((text.toList = digits ∨ text.toList = '+' :: digits) ∧
        value = Nat.ofDigitChars 10 digits 0 ∨
      text.toList = '-' :: digits ∧ value = -Nat.ofDigitChars 10 digits 0)

theorem natural?_eq_some_iff {digits : List Char} {n : Nat} :
    natural? digits = some n ↔
      digits ≠ [] ∧ (∀ c ∈ digits, c.isDigit = true) ∧ Nat.ofDigitChars 10 digits 0 = n := by
  rw [natural?, Option.ite_none_right_eq_some]
  simp only [Bool.and_eq_true, Bool.not_eq_true', List.isEmpty_eq_false_iff, List.all_eq_true,
    Option.some.injEq, and_assoc, ne_eq]

theorem integer?_eq_some_iff {text : String} {value : Int} :
    integer? text = some value ↔ States text value := by
  unfold integer?
  constructor
  · split
    next digits htext =>
      intro h
      obtain ⟨n, hn, rfl⟩ := Option.map_eq_some_iff.mp h
      obtain ⟨hne, hdigits, rfl⟩ := natural?_eq_some_iff.mp hn
      exact ⟨digits, hne, hdigits, Or.inl ⟨Or.inr htext, rfl⟩⟩
    next digits htext =>
      intro h
      obtain ⟨n, hn, rfl⟩ := Option.map_eq_some_iff.mp h
      obtain ⟨hne, hdigits, rfl⟩ := natural?_eq_some_iff.mp hn
      exact ⟨digits, hne, hdigits, Or.inr ⟨htext, rfl⟩⟩
    next =>
      intro h
      obtain ⟨n, hn, rfl⟩ := Option.map_eq_some_iff.mp h
      obtain ⟨hne, hdigits, rfl⟩ := natural?_eq_some_iff.mp hn
      exact ⟨text.toList, hne, hdigits, Or.inl ⟨Or.inl rfl, rfl⟩⟩
  · rintro ⟨digits, hne, hdigits, (⟨htext | htext, rfl⟩ | ⟨htext, rfl⟩)⟩
    · have hn := natural?_eq_some_iff.mpr ⟨hne, hdigits, rfl⟩
      rw [htext]
      -- No sign is a digit, so nothing is taken off in front.
      split
      next => exact absurd (hdigits '+' List.mem_cons_self) (by decide)
      next => exact absurd (hdigits '-' List.mem_cons_self) (by decide)
      next => rw [hn]; rfl
    · rw [htext]
      simp only [natural?_eq_some_iff.mpr ⟨hne, hdigits, rfl⟩]
      rfl
    · rw [htext]
      simp only [natural?_eq_some_iff.mpr ⟨hne, hdigits, rfl⟩]
      rfl

/-- A text states at most one integer. -/
theorem States.unique {text : String} {value other : Int} (h : States text value)
    (hother : States text other) : value = other :=
  Option.some.inj ((integer?_eq_some_iff.mpr h).symm.trans (integer?_eq_some_iff.mpr hother))

/-- A number states itself by its digits. -/
theorem states_repr (n : Nat) : States (Nat.repr n) n := by
  obtain ⟨hne, hdigits, hvalue⟩ := natural?_eq_some_iff.mp (natural?_toDigits n)
  exact ⟨Nat.toDigits 10 n, hne, hdigits, Or.inl ⟨Or.inl (Nat.toList_repr), by rw [hvalue]⟩⟩

theorem repr_inj {n m : Nat} (h : Nat.repr n = Nat.repr m) : n = m := by
  have hstates := states_repr n
  rw [h] at hstates
  exact Int.ofNat_inj.mp (hstates.unique (states_repr m))

end RowStore.Text.Numeral
