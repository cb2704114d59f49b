/-! # Texts as bytes

A text is stored as its UTF-8 bytes. Reading comes in two forms. A line of
input is read strictly and is refused if it is not valid. A column is read
leniently: each maximal part that no valid text could continue is replaced by
one U+FFFD. Main statements: lenient reading is the identity on what writing
produces, so valid bytes may be taken as they are.
-/

namespace RowStore.Text.Utf8

/-- The bytes of a text. -/
def encode (text : String) : List UInt8 :=
  text.toByteArray.data.toList

/-- The text with these bytes, if they are valid. -/
def decode? (bytes : Array UInt8) : Option String :=
  String.fromUTF8? ⟨bytes⟩

/-- The character that stands for bytes that are not valid. -/
def replacement : Char := '\uFFFD'

/-- The character that a byte sequence starts with, if it starts with a valid
one. No character has more than four bytes. -/
def head? (bytes : List UInt8) : Option Char :=
  (bytes.take 4).toByteArray.utf8DecodeChar? 0

/-- The number of bytes that the first byte of a character announces. A byte
that starts no character of several bytes announces itself alone. -/
def announced (lead : UInt8) : Nat :=
  if 0xC2 ≤ lead && lead ≤ 0xDF then 2
  else if 0xE0 ≤ lead && lead ≤ 0xEF then 3
  else if 0xF0 ≤ lead && lead ≤ 0xF4 then 4
  else 1

/-- Whether a byte may be the second one after `lead`. Overlong forms,
surrogates and code points beyond the last one are ruled out here. -/
def isSecond (lead byte : UInt8) : Bool :=
  let lowest : UInt8 := if lead = 0xE0 then 0xA0 else if lead = 0xF0 then 0x90 else 0x80
  let highest : UInt8 := if lead = 0xED then 0x9F else if lead = 0xF4 then 0x8F else 0xBF
  lowest ≤ byte && byte ≤ highest

/-- Whether a byte may be the third or the fourth one of a character. -/
def isLater (byte : UInt8) : Bool :=
  0x80 ≤ byte && byte ≤ 0xBF

/-- How many of the bytes after `lead` belong to the same invalid part: those
that agree with a character of the announced length, which `lead` does not
start, so at least one of its bytes is missing. -/
def invalidTail (lead : UInt8) : List UInt8 → Nat
  | [] => 0
  | second :: later =>
    if isSecond lead second then min (announced lead - 2) (1 + (later.takeWhile isLater).length)
    else 0

/-- The characters that bytes stand for, with one replacement character for
each maximal invalid part. -/
def lenient : List UInt8 → List Char
  | [] => []
  | lead :: rest =>
    match head? (lead :: rest) with
    | some c => c :: lenient (rest.drop (c.utf8Size - 1))
    | none => replacement :: lenient (rest.drop (invalidTail lead rest))
termination_by bytes => bytes.length

/-- The text that bytes stand for when they are read leniently. Valid bytes, the
common case, are taken as they are. -/
def decode (bytes : List UInt8) : String :=
  match decode? bytes.toArray with
  | some text => text
  | none => String.ofList (lenient bytes)

/-! ## Writing -/

theorem encode_eq_flatMap (text : String) :
    encode text = text.toList.flatMap String.utf8EncodeChar := by
  rw [encode, ← String.utf8Encode_toList, List.utf8Encode]
  simp

@[simp] theorem encode_ofList (cs : List Char) :
    encode (String.ofList cs) = cs.flatMap String.utf8EncodeChar := by
  simp [encode_eq_flatMap]

@[simp] theorem encode_append (first second : String) :
    encode (first ++ second) = encode first ++ encode second := by
  simp [encode_eq_flatMap]

@[simp] theorem length_encode (text : String) : (encode text).length = text.utf8ByteSize := by
  simp [encode]

theorem encode_injective {first second : String} (h : encode first = encode second) :
    first = second := by
  simp only [encode, Array.toList_inj] at h
  exact String.toByteArray_inj.mp (ByteArray.ext h)

/-! ## Reading back -/

theorem decode?_encode (text : String) : decode? (encode text).toArray = some text := by
  have hbytes : (⟨(encode text).toArray⟩ : ByteArray) = text.toByteArray := by
    simp [encode]
  simp only [decode?, String.fromUTF8?, hbytes]
  rw [dif_pos text.isValidUTF8]
  rfl

theorem head?_utf8EncodeChar_append (c : Char) (rest : List UInt8) :
    head? (String.utf8EncodeChar c ++ rest) = some c := by
  have hlength := String.length_utf8EncodeChar c
  have hle := c.utf8Size_le_four
  rw [head?, List.take_append, List.take_of_length_le (by omega), List.toByteArray_append]
  exact ByteArray.utf8DecodeChar?_utf8EncodeChar_append

theorem lenient_utf8EncodeChar_append (c : Char) (rest : List UInt8) :
    lenient (String.utf8EncodeChar c ++ rest) = c :: lenient rest := by
  have hhead := head?_utf8EncodeChar_append c rest
  have hlength : (String.utf8EncodeChar c).length = c.utf8Size := String.length_utf8EncodeChar c
  have hpos := c.utf8Size_pos
  match hbytes : String.utf8EncodeChar c with
  | [] => simp only [hbytes, List.length_nil] at hlength; omega
  | lead :: tail =>
    simp only [hbytes, List.cons_append] at hhead ⊢
    have htail : tail.length = c.utf8Size - 1 := by
      simp only [hbytes, List.length_cons] at hlength; omega
    rw [lenient, hhead]
    simp [← htail]

theorem lenient_flatMap_utf8EncodeChar (cs : List Char) :
    lenient (cs.flatMap String.utf8EncodeChar) = cs := by
  induction cs with
  | nil => simp [lenient]
  | cons c cs ih => rw [List.flatMap_cons, lenient_utf8EncodeChar_append, ih]

/-- Valid bytes are those that writing produces. -/
theorem eq_encode_of_decode? {bytes : List UInt8} {text : String}
    (h : decode? bytes.toArray = some text) : bytes = encode text := by
  simp only [decode?, String.fromUTF8?] at h
  split at h
  next hvalid =>
    obtain rfl := Option.some.inj h
    simp [encode, String.fromUTF8]
  next => cases h

/-- Reading gives the lenient characters, whether the bytes are valid or not. -/
theorem decode_eq_ofList_lenient (bytes : List UInt8) :
    decode bytes = String.ofList (lenient bytes) := by
  unfold decode
  split
  next text h =>
    rw [eq_encode_of_decode? h, encode_eq_flatMap, lenient_flatMap_utf8EncodeChar,
      String.ofList_toList]
  next => rfl

/-- Reading is the identity on what writing produces. -/
theorem decode_encode (text : String) : decode (encode text) = text := by
  rw [decode, decode?_encode]

end RowStore.Text.Utf8
