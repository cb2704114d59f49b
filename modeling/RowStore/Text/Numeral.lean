/-! # Integers in decimal notation

A numeral is an optional sign and one or more ASCII digits; leading zeros are
allowed and nothing else is. A numeral may be of any length, so one that is
wanted within bounds is given up at the digit that leaves them. Main statements:
the digits of a number read back as the number, and reading within bounds is
reading followed by a check of the bounds.
-/

namespace RowStore.Text.Numeral

/-- The number that a non-empty run of digits stands for. -/
def natural? (digits : List Char) : Option Nat :=
  if !digits.isEmpty && digits.all Char.isDigit then some (Nat.ofDigitChars 10 digits 0) else none

/-- The integer that a numeral stands for. -/
def integer? (text : String) : Option Int :=
  match text.toList with
  | '+' :: digits => (natural? digits).map Int.ofNat
  | '-' :: digits => (natural? digits).map fun n => -Int.ofNat n
  | digits => (natural? digits).map Int.ofNat

/-- The number that a run of digits stands for after the digits of `n` were read,
unless it exceeds `limit`. -/
def continueUpTo? (limit n : Nat) : List Char → Option Nat
  | [] => some n
  | c :: digits =>
    let next := 10 * n + (c.toNat - '0'.toNat)
    if c.isDigit && next ≤ limit then continueUpTo? limit next digits else none

/-- The number that a non-empty run of digits stands for, unless it exceeds
`limit`. -/
def naturalUpTo? (limit : Nat) (digits : List Char) : Option Nat :=
  if digits.isEmpty then none else continueUpTo? limit 0 digits

/-- The integer that a numeral stands for, unless it is below `-least` or above
`greatest`. -/
def integerWithin? (least greatest : Nat) (text : String) : Option Int :=
  match text.toList with
  | '+' :: digits => (naturalUpTo? greatest digits).map Int.ofNat
  | '-' :: digits => (naturalUpTo? least digits).map fun n => -Int.ofNat n
  | digits => (naturalUpTo? greatest digits).map Int.ofNat

theorem natural?_toDigits (n : Nat) : natural? (Nat.toDigits 10 n) = some n := by
  have hdigits : (Nat.toDigits 10 n).all Char.isDigit = true :=
    List.all_eq_true.mpr fun c hc => Nat.isDigit_of_mem_toDigits (by decide) (by decide) hc
  simp [natural?, hdigits, Nat.ofDigitChars_toDigits]

/-- Further digits make a number no smaller. -/
theorem le_ofDigitChars (digits : List Char) (n : Nat) : n ≤ Nat.ofDigitChars 10 digits n := by
  induction digits generalizing n with
  | nil => simp
  | cons c digits ih =>
    rw [Nat.ofDigitChars_cons]
    have := ih (10 * n + (c.toNat - '0'.toNat))
    omega

theorem continueUpTo?_eq {limit n : Nat} (h : n ≤ limit) (digits : List Char) :
    continueUpTo? limit n digits =
      if digits.all Char.isDigit ∧ Nat.ofDigitChars 10 digits n ≤ limit
      then some (Nat.ofDigitChars 10 digits n) else none := by
  induction digits generalizing n with
  | nil => simp [continueUpTo?, h]
  | cons c digits ih =>
    simp only [continueUpTo?, Nat.ofDigitChars_cons, List.all_cons, Bool.and_eq_true,
      decide_eq_true_eq]
    generalize 10 * n + (c.toNat - '0'.toNat) = next
    by_cases hnext : next ≤ limit
    · rw [ih hnext]
      by_cases hc : c.isDigit = true <;> simp only [hc, hnext, true_and, and_true, false_and,
        if_true, if_false, Bool.false_eq_true]
    · have := le_ofDigitChars digits next
      rw [if_neg (fun h => hnext h.2), if_neg (by omega)]

theorem naturalUpTo?_eq (limit : Nat) (digits : List Char) :
    naturalUpTo? limit digits = (natural? digits).filter (· ≤ limit) := by
  cases digits with
  | nil => simp [naturalUpTo?, natural?]
  | cons c digits =>
    rw [naturalUpTo?, if_neg (by simp), continueUpTo?_eq (Nat.zero_le limit), natural?]
    by_cases hdigits : (c :: digits).all Char.isDigit = true
    · simp only [hdigits, List.isEmpty_cons, Bool.not_false, Bool.true_and, true_and, if_true,
        Option.filter_some, decide_eq_true_eq]
    · simp only [hdigits, Bool.and_false, false_and, if_false, Bool.false_eq_true,
        Option.filter_none]

/-- Reading within bounds finds the integers that lie in them. -/
theorem integerWithin?_eq_some_iff {least greatest : Nat} {text : String} {value : Int} :
    integerWithin? least greatest text = some value ↔
      integer? text = some value ∧ -(least : Int) ≤ value ∧ value ≤ greatest := by
  unfold integerWithin? integer?
  split <;>
  · simp only [naturalUpTo?_eq, Option.map_eq_some_iff, Option.filter_eq_some_iff,
      decide_eq_true_eq]
    constructor
    · rintro ⟨n, ⟨hn, hle⟩, rfl⟩
      exact ⟨⟨n, hn, rfl⟩, by simp; omega⟩
    · rintro ⟨⟨n, hn, rfl⟩, hbounds⟩
      exact ⟨n, ⟨hn, by simp at hbounds; omega⟩, rfl⟩

end RowStore.Text.Numeral
