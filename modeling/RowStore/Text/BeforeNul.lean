import RowStore.Text.Utf8

/-! # Texts up to their first NUL

A column marks the end of its text by a zero byte, so a text that holds a NUL
is read back only up to there. Main statement: cutting the bytes before the
first zero is cutting the text before its first NUL, so what is left is valid.
-/

namespace RowStore.Text

/-- The text before its first NUL, or all of it. -/
def beforeNul (text : String) : String :=
  String.ofList (text.toList.takeWhile (· != '\x00'))

theorem nul_not_mem_beforeNul (text : String) : '\x00' ∉ (beforeNul text).toList := by
  intro hmem
  rw [beforeNul, String.toList_ofList] at hmem
  have := List.all_eq_true.mp List.all_takeWhile _ hmem
  simp at this

theorem beforeNul_eq_self_iff {text : String} :
    beforeNul text = text ↔ '\x00' ∉ text.toList := by
  constructor
  · intro h
    rw [← h]
    exact nul_not_mem_beforeNul text
  · intro h
    have hall : ∀ c ∈ text.toList, (c != '\x00') = true := by
      intro c hc
      simp only [bne_iff_ne, ne_eq]
      rintro rfl
      exact h hc
    have hself : (text.toList ++ []).takeWhile (· != '\x00') =
        text.toList ++ [].takeWhile (· != '\x00') := List.takeWhile_append_of_pos hall
    rw [List.append_nil, List.takeWhile_nil, List.append_nil] at hself
    rw [beforeNul, hself, String.ofList_toList]

namespace Utf8

theorem utf8EncodeChar_nul : String.utf8EncodeChar '\x00' = [0] := rfl

/-- No character but NUL has a zero among its bytes. -/
theorem ne_zero_of_mem_utf8EncodeChar {c : Char} (hc : c ≠ '\x00') {byte : UInt8}
    (hbyte : byte ∈ String.utf8EncodeChar c) : byte ≠ 0 := by
  have hval : c.val.toNat ≠ 0 := fun h => hc (Char.ext (UInt32.toNat_inj.mp h))
  have hne {n : Nat} (h : n % 256 ≠ 0) : UInt8.ofNat n ≠ 0 := fun hzero =>
    h (by simpa using congrArg UInt8.toNat hzero)
  simp only [String.utf8EncodeChar] at hbyte
  split at hbyte
  next =>
    obtain rfl := List.mem_singleton.mp hbyte
    exact hne (by omega)
  next =>
    split at hbyte
    next =>
      simp only [List.mem_cons, List.not_mem_nil, or_false] at hbyte
      rcases hbyte with rfl | rfl <;> exact hne (by omega)
    next =>
      split at hbyte
      next =>
        simp only [List.mem_cons, List.not_mem_nil, or_false] at hbyte
        rcases hbyte with rfl | rfl | rfl <;> exact hne (by omega)
      next =>
        simp only [List.mem_cons, List.not_mem_nil, or_false] at hbyte
        rcases hbyte with rfl | rfl | rfl | rfl <;> exact hne (by omega)

theorem takeWhile_flatMap_utf8EncodeChar (cs : List Char) (rest : List UInt8)
    (hrest : rest.takeWhile (· != 0) = []) :
    (cs.flatMap String.utf8EncodeChar ++ rest).takeWhile (· != 0) =
      (cs.takeWhile (· != '\x00')).flatMap String.utf8EncodeChar := by
  induction cs with
  | nil => simpa using hrest
  | cons c cs ih =>
    by_cases hc : c = '\x00'
    · subst hc
      rw [List.flatMap_cons, utf8EncodeChar_nul]
      simp
    · rw [List.flatMap_cons, List.append_assoc, List.takeWhile_append_of_pos, ih,
        List.takeWhile_cons_of_pos (by simpa using hc), List.flatMap_cons]
      intro byte hbyte
      simpa using ne_zero_of_mem_utf8EncodeChar hc hbyte

/-- Cutting the bytes of a text before the first zero is cutting the text
before its first NUL. -/
theorem takeWhile_encode (text : String) (rest : List UInt8)
    (hrest : rest.takeWhile (· != 0) = []) :
    (encode text ++ rest).takeWhile (· != 0) = encode (beforeNul text) := by
  rw [beforeNul, encode_ofList, encode_eq_flatMap, takeWhile_flatMap_utf8EncodeChar _ _ hrest]

end Utf8

end RowStore.Text
