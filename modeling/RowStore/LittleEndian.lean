/-! # Numbers as bytes, the least significant first

Main statement: reading what was written gives the number back, if the bytes
are enough to hold it.
-/

namespace RowStore.LittleEndian

/-- The lowest `width` digits of a number to the base 256. -/
def encode : (width : Nat) → Nat → List UInt8
  | 0, _ => []
  | width + 1, n => UInt8.ofNat n :: encode width (n / 256)

/-- The number that the digits stand for. -/
def decode : List UInt8 → Nat
  | [] => 0
  | digit :: digits => digit.toNat + 256 * decode digits

@[simp] theorem length_encode (width n : Nat) : (encode width n).length = width := by
  induction width generalizing n with
  | zero => rfl
  | succ width ih => simp [encode, ih]

theorem decode_encode {width n : Nat} (h : n < Nat.pow 256 width) :
    decode (encode width n) = n := by
  induction width generalizing n with
  | zero => exact (Nat.lt_one_iff.mp h).symm
  | succ width ih =>
    have hdiv : n / 256 < Nat.pow 256 width := Nat.div_lt_of_lt_mul (Nat.mul_comm _ _ ▸ h)
    simp only [encode, decode, ih hdiv, UInt8.toNat_ofNat']
    omega

theorem decode_lt (digits : List UInt8) : decode digits < Nat.pow 256 digits.length := by
  induction digits with
  | nil => exact Nat.zero_lt_one
  | cons digit digits ih =>
    have hdigit := digit.toNat_lt
    have hpow : Nat.pow 256 (digit :: digits).length = Nat.pow 256 digits.length * 256 := rfl
    rw [decode, hpow]
    omega

theorem encode_decode (digits : List UInt8) :
    encode digits.length (decode digits) = digits := by
  induction digits with
  | nil => rfl
  | cons digit digits ih =>
    have hdigit := digit.toNat_lt
    have hdiv : (digit.toNat + 256 * decode digits) / 256 = decode digits := by omega
    simp only [List.length_cons, decode, encode, hdiv, ih, List.cons.injEq, and_true]
    apply UInt8.toNat_inj.mp
    simp only [UInt8.toNat_ofNat']
    omega

end RowStore.LittleEndian
