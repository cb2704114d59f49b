import RowStore.Text.BeforeNul

/-! # Lenient reading

Lenient reading makes up no character but the replacement character: every
other one stands in the bytes as it was written. So a text read from bytes
without zeros holds no NUL, and one without a replacement character was read
from valid bytes.
-/

namespace RowStore.Text.Utf8

/-- A byte sequence that starts with a character starts with all of its bytes. -/
theorem eq_append_of_head? {lead : UInt8} {rest : List UInt8} {c : Char}
    (h : head? (lead :: rest) = some c) :
    lead :: rest = String.utf8EncodeChar c ++ rest.drop (c.utf8Size - 1) := by
  obtain ⟨more, hmore⟩ := ByteArray.exists_of_utf8DecodeChar?_eq_some h
  have hlist : (lead :: rest).take 4 = String.utf8EncodeChar c ++ more.data.toList := by
    simpa using congrArg (fun bytes => bytes.data.toList) hmore
  have hbytes : lead :: rest =
      String.utf8EncodeChar c ++ (more.data.toList ++ (lead :: rest).drop 4) := by
    rw [← List.append_assoc, ← hlist, List.take_append_drop]
  have hdrop : rest.drop (c.utf8Size - 1) = (lead :: rest).drop c.utf8Size := by
    obtain ⟨less, hless⟩ := Nat.exists_eq_add_one.mpr c.utf8Size_pos
    rw [hless, List.drop_succ_cons, Nat.add_sub_cancel]
  rw [hdrop, hbytes, ← String.length_utf8EncodeChar c, List.drop_left]

/-- Every character but the replacement character stands in the bytes. -/
theorem mem_of_mem_lenient {bytes : List UInt8} {c : Char} (h : c ∈ lenient bytes) :
    c = replacement ∨ ∀ byte ∈ String.utf8EncodeChar c, byte ∈ bytes := by
  fun_induction lenient bytes with
  | case1 => cases h
  | case2 lead rest first hhead ih =>
      rw [eq_append_of_head? hhead]
      rcases List.mem_cons.mp h with rfl | hlater
      · exact Or.inr fun byte hbyte => List.mem_append_left _ hbyte
      · exact (ih hlater).imp_right fun hmem byte hbyte => List.mem_append_right _ (hmem byte hbyte)
  | case3 lead rest _ ih =>
      rcases List.mem_cons.mp h with hfirst | hlater
      · exact Or.inl hfirst
      · refine (ih hlater).imp_right fun hmem byte hbyte => ?_
        exact List.mem_cons_of_mem _ (List.mem_of_mem_drop (hmem byte hbyte))

/-- Bytes that are read without a replacement character are the bytes of what is read. -/
theorem flatMap_lenient_of_not_mem {bytes : List UInt8} (h : replacement ∉ lenient bytes) :
    (lenient bytes).flatMap String.utf8EncodeChar = bytes := by
  fun_induction lenient bytes with
  | case1 => rfl
  | case2 lead rest first hhead ih =>
      rw [List.flatMap_cons, ih fun hmem => h (List.mem_cons_of_mem _ hmem),
        ← eq_append_of_head? hhead]
  | case3 => exact absurd List.mem_cons_self h

/-- A text read from bytes without zeros holds no NUL. -/
theorem nul_not_mem_decode {bytes : List UInt8} (h : 0 ∉ bytes) :
    '\x00' ∉ (decode bytes).toList := by
  rw [decode_eq_ofList_lenient, String.toList_ofList]
  intro hnul
  rcases mem_of_mem_lenient hnul with hreplacement | hmem
  · exact absurd hreplacement (by decide)
  · exact h (hmem 0 (utf8EncodeChar_nul ▸ List.mem_singleton_self 0))

/-- Bytes are not valid only if a replacement character is read from them. -/
theorem replacement_mem_decode {bytes : List UInt8} (h : decode? bytes.toArray = none) :
    replacement ∈ (decode bytes).toList := by
  rw [decode_eq_ofList_lenient, String.toList_ofList]
  apply Classical.byContradiction
  intro hnot
  rw [← flatMap_lenient_of_not_mem hnot, ← encode_ofList, decode?_encode] at h
  cases h

end RowStore.Text.Utf8
