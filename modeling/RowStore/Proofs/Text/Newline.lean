import RowStore.Stream.Source
import RowStore.Text.Blank

/-! # Newlines in bytes and in texts

The byte of the newline stands for a newline wherever it occurs in valid bytes,
so cutting bytes into lines and cutting text into lines is the same. A newline
at the end of a line changes neither whether the line is valid nor what is left
of it when it is trimmed.
-/

namespace RowStore.Text

/-! ## Pieces of a list -/

section Pieces

variable {α : Type} [DecidableEq α] (separator : α)

/-- The pieces of a list, each of which ends at a separator. A last piece without one counts unless
it is empty. -/
def pieces (items : List α) : List (List α) :=
  let parts := items.splitOn separator
  if parts.getLast? = some [] then parts.dropLast else parts

theorem pieces_nil : pieces separator [] = [] := by
  rw [pieces, List.splitOn_nil]
  rfl

variable {separator}

theorem pieces_of_not_mem {last : List α} (h : separator ∉ last) (hne : last ≠ []) :
    pieces separator last = [last] := by
  have hlast : ¬ [last].getLast? = some [] := by simpa using hne
  rw [pieces, List.splitOn_eq_singleton h]
  exact if_neg hlast

theorem pieces_append_cons {first : List α} (h : separator ∉ first) (rest : List α) :
    pieces separator (first ++ separator :: rest) = first :: pieces separator rest := by
  have hparts : rest.splitOn separator ≠ [] := List.splitOn_ne_nil _ _
  rw [pieces, pieces, List.splitOn_append_cons_self_of_not_mem h,
    List.getLast?_cons_of_ne_nil hparts, List.dropLast_cons_of_ne_nil hparts]
  split
  · rfl
  · rfl

/-- What is before a separator, and what is behind it, is known if it is the first one. -/
theorem append_cons_inj {first other rest rest' : List α} (hfirst : separator ∉ first)
    (hother : separator ∉ other) (h : first ++ separator :: rest = other ++ separator :: rest') :
    first = other ∧ rest = rest' := by
  have hpieces := congrArg (pieces separator) h
  rw [pieces_append_cons hfirst, pieces_append_cons hother] at hpieces
  obtain rfl := (List.cons.inj hpieces).1
  exact ⟨rfl, (List.cons.inj (List.append_cancel_left h)).2⟩

variable (separator) in
/-- Lists are taken piece by piece: the empty one, those that are a last piece, and those with one
more piece in front of another list. -/
@[elab_as_elim]
theorem pieceInduction {motive : List α → Prop} (nil : motive [])
    (tail : ∀ last, separator ∉ last → last ≠ [] → motive last)
    (piece : ∀ first rest, separator ∉ first → motive rest → motive (first ++ separator :: rest))
    (items : List α) : motive items := by
  by_cases hmem : separator ∈ items
  · obtain ⟨first, rest, hitems, hfirst⟩ := List.eq_append_cons_of_mem hmem
    rw [hitems]
    exact piece first rest hfirst (pieceInduction nil tail piece rest)
  · by_cases hnil : items = []
    · rw [hnil]
      exact nil
    · exact tail items hmem hnil
termination_by items.length
decreasing_by
  rw [hitems, List.length_append, List.length_cons]
  omega

theorem length_pieces_le (items : List α) :
    (pieces separator items).length ≤ items.count separator + 1 := by
  induction items using pieceInduction separator with
  | nil =>
      rw [pieces_nil]
      exact Nat.zero_le _
  | tail last hlast hne =>
      rw [pieces_of_not_mem hlast hne]
      exact Nat.le_add_left _ _
  | piece first rest hfirst ih =>
      rw [pieces_append_cons hfirst, List.length_cons, List.count_append,
        List.count_eq_zero.mpr hfirst, List.count_cons_self, Nat.zero_add]
      exact Nat.succ_le_succ ih

end Pieces

namespace Utf8

/-- A byte of the ASCII range is there for an ASCII character only. -/
theorem toNat_eq_of_mem_utf8EncodeChar {c : Char} {byte : UInt8}
    (hbyte : byte ∈ String.utf8EncodeChar c) (hlt : byte.toNat < 128) :
    byte.toNat = c.val.toNat := by
  have hval := c.val.toNat_lt
  simp only [String.utf8EncodeChar] at hbyte
  split at hbyte
  next =>
    obtain rfl := List.mem_singleton.mp hbyte
    simp only [UInt8.toNat_ofNat'] at hlt ⊢
    omega
  next =>
    exfalso
    split at hbyte
    next =>
      simp only [List.mem_cons, List.not_mem_nil, or_false] at hbyte
      rcases hbyte with rfl | rfl <;> simp only [UInt8.toNat_ofNat'] at hlt <;> omega
    next =>
      split at hbyte
      next =>
        simp only [List.mem_cons, List.not_mem_nil, or_false] at hbyte
        rcases hbyte with rfl | rfl | rfl <;> simp only [UInt8.toNat_ofNat'] at hlt <;> omega
      next =>
        simp only [List.mem_cons, List.not_mem_nil, or_false] at hbyte
        rcases hbyte with rfl | rfl | rfl | rfl <;> simp only [UInt8.toNat_ofNat'] at hlt <;> omega

theorem utf8EncodeChar_ne_nil (c : Char) : String.utf8EncodeChar c ≠ [] := by
  rw [← List.length_pos_iff, String.length_utf8EncodeChar]
  exact c.utf8Size_pos

theorem eq_newline_of_mem_utf8EncodeChar {c : Char}
    (h : Source.newline ∈ String.utf8EncodeChar c) : c = '\n' := by
  have hval := toNat_eq_of_mem_utf8EncodeChar h (by decide)
  exact Char.ext (UInt32.toNat_inj.mp hval.symm)

theorem utf8EncodeChar_newline : String.utf8EncodeChar '\n' = [Source.newline] := rfl

theorem newline_mem_encode_iff {text : String} :
    Source.newline ∈ encode text ↔ '\n' ∈ text.toList := by
  rw [encode_eq_flatMap, List.mem_flatMap]
  constructor
  · rintro ⟨c, hc, hmem⟩
    exact eq_newline_of_mem_utf8EncodeChar hmem ▸ hc
  · intro h
    exact ⟨'\n', h, List.mem_cons_self⟩

/-- The newline at the end of a line has no influence on whether the line is valid. -/
theorem decode?_append_newline (line : List UInt8) :
    decode? (line ++ [Source.newline]).toArray = (decode? line.toArray).map (· ++ "\n") := by
  cases hline : decode? line.toArray with
  | some text =>
      have hencode : line ++ [Source.newline] = encode (text ++ "\n") := by
        rw [eq_encode_of_decode? hline, encode_append]
        rfl
      rw [hencode, decode?_encode]
      rfl
  | none =>
      cases hwhole : decode? (line ++ [Source.newline]).toArray with
      | none => rfl
      | some text =>
          exfalso
          have hencode := eq_encode_of_decode? hwhole
          rw [encode_eq_flatMap] at hencode
          rcases List.eq_nil_or_concat text.toList with hnil | ⟨cs, c, hlast⟩
          · rw [hnil] at hencode
            simp at hencode
          · -- The newline is the last byte of the last character, which thus is a newline itself.
            rw [hlast, List.concat_eq_append, List.flatMap_append, List.flatMap_singleton] at hencode
            have hends := congrArg List.getLast? hencode
            rw [List.getLast?_concat, List.getLast?_append,
              List.getLast?_eq_some_getLast (utf8EncodeChar_ne_nil c), Option.some_or] at hends
            have hmem := List.getLast_mem (utf8EncodeChar_ne_nil c)
            rw [← Option.some.inj hends] at hmem
            obtain rfl := eq_newline_of_mem_utf8EncodeChar hmem
            rw [utf8EncodeChar_newline] at hencode
            have hchars := (List.append_inj' hencode rfl).1
            rw [← encode_ofList] at hchars
            rw [hchars, decode?_encode] at hline
            cases hline

end Utf8

namespace Blank

/-- A newline at the end of a line is trimmed off. -/
theorem trim_append_newline (text : String) : trim (text ++ "\n") = trim text := by
  rw [trim, trim, String.toList_append, List.dropWhile_append]
  split
  next hblank =>
    rw [List.isEmpty_iff.mp hblank]
    rfl
  next =>
    have hnewline : isBlank '\n' = true := by decide
    have hlast : "\n".toList = ['\n'] := rfl
    rw [hlast, List.reverse_append, List.reverse_singleton, List.singleton_append,
      List.dropWhile_cons_of_pos hnewline]

end Blank

end RowStore.Text
