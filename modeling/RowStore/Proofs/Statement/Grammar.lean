import RowStore.Proofs.Text.Numerals
import RowStore.Proofs.Text.Words
import RowStore.Statement

/-! # The grammar of statements

A line is parsed according to its words alone. The grammar says for every list
of words what they stand for: a statement, or the one reason why they are
turned down. Where several things are wrong with a line, the keyword counts
before the number of arguments, that before the row number, and the row number
before the lengths of the texts.
-/

namespace RowStore.Statement

open Text

/-- A signed number of 64 bits. -/
def InSigned64 (value : Int) : Prop :=
  -9223372036854775808 ≤ value ∧ value ≤ 9223372036854775807

instance (value : Int) : Decidable (InSigned64 value) :=
  inferInstanceAs (Decidable (_ ∧ _))

/-- What a line with these words stands for. -/
inductive Grammar (line : String) : List String → Except Rejection Statement → Prop
  | unknownKeyword {tokens : List String} (hselect : tokens.head? ≠ some "select")
      (hinsert : tokens.head? ≠ some "insert") :
      Grammar line tokens (.error (.unknownKeyword line))
  | select : Grammar line ["select"] (.ok .select)
  | selectArguments (argument : String) (arguments : List String) :
      Grammar line ("select" :: argument :: arguments) (.error .malformed)
  | insertArguments {arguments : List String} (harguments : arguments.length ≠ 3) :
      Grammar line ("insert" :: arguments) (.error .malformed)
  | number {number : String} (username email : String)
      (hnumber : ∀ value, Numeral.States number value →
        ¬ InSigned64 value ∨ 4294967295 < value) :
      Grammar line ["insert", number, username, email] (.error .malformed)
  | notPositive {number : String} (username email : String) {value : Int}
      (hnumber : Numeral.States number value) (hrange : InSigned64 value) (hvalue : value ≤ 0) :
      Grammar line ["insert", number, username, email] (.error .idNotPositive)
  | textTooLong {number username email : String} {value : Int}
      (hnumber : Numeral.States number value) (hpos : 1 ≤ value) (hvalue : value ≤ 4294967295)
      (hlong : 32 < username.utf8ByteSize ∨ 255 < email.utf8ByteSize) :
      Grammar line ["insert", number, username, email] (.error .textTooLong)
  | insert {number : String} {row : Row} (hnumber : Numeral.States number row.id.toNat)
      (hpos : 1 ≤ row.id.toNat) (husername : row.username.utf8ByteSize ≤ 32)
      (hemail : row.email.utf8ByteSize ≤ 255) :
      Grammar line ["insert", number, row.username, row.email] (.ok (.insert row))

/-! ## Row numbers -/

theorem integerWithin?_signed64 {word : String} {value : Int} :
    Numeral.integerWithin? (Nat.pow 2 63) (Nat.pow 2 63 - 1) word = some value ↔
      Numeral.States word value ∧ InSigned64 value := by
  rw [Numeral.integerWithin?_eq_some_iff, Numeral.integer?_eq_some_iff]
  rfl

theorem rowNumber_of_states {word : String} {value : Int} (hword : Numeral.States word value)
    (hpos : 1 ≤ value) (hvalue : value ≤ 4294967295) :
    rowNumber word = .ok (UInt32.ofNat value.toNat) := by
  have hrange : InSigned64 value := ⟨by omega, by omega⟩
  have hsize : ¬ UInt32.size ≤ value.toNat := by
    rw [UInt32.size]
    omega
  rw [rowNumber, integerWithin?_signed64.mpr ⟨hword, hrange⟩]
  simp only
  rw [if_neg (by omega), if_neg hsize]

theorem rowNumber_of_id {word : String} {id : UInt32} (hword : Numeral.States word id.toNat)
    (hpos : 1 ≤ id.toNat) : rowNumber word = .ok id := by
  have hlt := id.toNat_lt
  have hnumber := rowNumber_of_states hword (by omega) (by omega)
  rwa [Int.toNat_natCast, UInt32.ofNat_toNat] at hnumber

theorem rowNumber_of_not_positive {word : String} {value : Int}
    (hword : Numeral.States word value) (hrange : InSigned64 value) (hvalue : value ≤ 0) :
    rowNumber word = .error .idNotPositive := by
  rw [rowNumber, integerWithin?_signed64.mpr ⟨hword, hrange⟩]
  exact if_pos hvalue

/-- A word that states no row number, or one that is too large, is refused alike. -/
theorem rowNumber_of_outside {word : String}
    (hword : ∀ value, Numeral.States word value → ¬ InSigned64 value ∨ 4294967295 < value) :
    rowNumber word = .error .malformed := by
  unfold rowNumber
  split
  next => rfl
  next value hvalue =>
    obtain ⟨hstates, hrange⟩ := integerWithin?_signed64.mp hvalue
    have hlarge : 4294967295 < value := (hword value hstates).resolve_left (not_not_intro hrange)
    have hsize : UInt32.size ≤ value.toNat := by
      rw [UInt32.size]
      omega
    rw [if_neg (by omega), if_pos hsize]

/-! ## Lines -/

theorem parse_of_head?_ne {line : String} (hselect : (Blank.words line).head? ≠ some "select")
    (hinsert : (Blank.words line).head? ≠ some "insert") :
    parse line = .error (.unknownKeyword line) := by
  unfold parse
  split
  next => rfl
  next keyword arguments hwords =>
    rw [hwords, List.head?_cons] at hselect hinsert
    rw [if_neg fun h => hinsert (congrArg some h), if_neg fun h => hselect (congrArg some h)]

theorem parse_of_select {line : String} {arguments : List String}
    (hwords : Blank.words line = "select" :: arguments) :
    parse line = if arguments.isEmpty then .ok select else .error .malformed := by
  have hne : ¬ "select" = "insert" := by decide
  simp only [parse, hwords, hne, if_false, if_true]

theorem parse_of_insert {line : String} {arguments : List String}
    (hwords : Blank.words line = "insert" :: arguments) :
    parse line = parseInsert arguments := by
  simp only [parse, hwords, if_true]

theorem parseInsert_of_length_ne {arguments : List String} (h : arguments.length ≠ 3) :
    parseInsert arguments = .error .malformed := by
  unfold parseInsert
  split
  next => exact absurd rfl h
  next => rfl

theorem parseInsert_of_error {number : String} (username email : String) {reason : Rejection}
    (h : rowNumber number = .error reason) :
    parseInsert [number, username, email] = .error reason := by
  simp only [parseInsert, h]

theorem parseInsert_of_ok {number : String} (username email : String) {id : UInt32}
    (h : rowNumber number = .ok id) :
    parseInsert [number, username, email] = (Row.ofFields id username email).map .insert := by
  simp only [parseInsert, h]

/-- Lines with the same words are parsed alike, but for the echo of a line without a keyword. -/
theorem parse_of_words_eq {line other : String} (h : Blank.words line = Blank.words other) :
    parse line = parse other ∨
      parse line = .error (.unknownKeyword line) ∧ parse other = .error (.unknownKeyword other) := by
  by_cases hselect : (Blank.words other).head? = some "select"
  · obtain ⟨arguments, hwords⟩ := List.head?_eq_some_iff.mp hselect
    left
    rw [parse_of_select hwords, parse_of_select (h.trans hwords)]
  · by_cases hinsert : (Blank.words other).head? = some "insert"
    · obtain ⟨arguments, hwords⟩ := List.head?_eq_some_iff.mp hinsert
      left
      rw [parse_of_insert hwords, parse_of_insert (h.trans hwords)]
    · right
      refine ⟨parse_of_head?_ne ?_ ?_, parse_of_head?_ne hselect hinsert⟩
      · rwa [h]
      · rwa [h]

/-- What the grammar says of the words of a line is what the line is parsed to. -/
theorem Grammar.parse_eq {line : String} {result : Except Rejection Statement}
    (h : Grammar line (Blank.words line) result) : parse line = result := by
  generalize hwords : Blank.words line = tokens at h
  cases h with
  | unknownKeyword hselect hinsert =>
      subst hwords
      exact parse_of_head?_ne hselect hinsert
  | select => exact parse_of_select hwords
  | selectArguments => exact parse_of_select hwords
  | insertArguments harguments =>
      rw [parse_of_insert hwords, parseInsert_of_length_ne harguments]
  | number username email hnumber =>
      rw [parse_of_insert hwords, parseInsert_of_error _ _ (rowNumber_of_outside hnumber)]
  | notPositive username email hnumber hrange hvalue =>
      rw [parse_of_insert hwords,
        parseInsert_of_error _ _ (rowNumber_of_not_positive hnumber hrange hvalue)]
  | textTooLong hnumber hpos hvalue hlong =>
      rw [parse_of_insert hwords, parseInsert_of_ok _ _ (rowNumber_of_states hnumber hpos hvalue),
        Row.ofFields_of_too_long _ hlong]
      rfl
  | insert hnumber hpos husername hemail =>
      rw [parse_of_insert hwords, parseInsert_of_ok _ _ (rowNumber_of_id hnumber hpos),
        Row.ofFields_eq_ok_iff.mpr ⟨rfl, husername, hemail⟩]
      rfl

theorem exists_grammar_of_states {number : String} {value : Int}
    (hnumber : Numeral.States number value) (line username email : String) :
    ∃ result, Grammar line ["insert", number, username, email] result := by
  by_cases hrange : InSigned64 value ∧ value ≤ 4294967295
  · rcases Int.lt_or_le 0 value with hpos | hvalue
    · -- The number has room in a row, and the texts decide.
      by_cases hlong : 32 < username.utf8ByteSize ∨ 255 < email.utf8ByteSize
      · exact ⟨_, .textTooLong hnumber hpos hrange.2 hlong⟩
      · obtain ⟨husername, hemail⟩ := not_or.mp hlong
        obtain ⟨id, rfl⟩ : ∃ id : UInt32, value = id.toNat := by
          have hid : (UInt32.ofNat value.toNat).toNat = value.toNat :=
            UInt32.toNat_ofNat_of_lt (by rw [UInt32.size]; omega)
          exact ⟨UInt32.ofNat value.toNat, by rw [hid]; omega⟩
        let row : Row := { id, username, email }
        have hfits : row.username.utf8ByteSize ≤ 32 := Nat.not_lt.mp husername
        exact ⟨_, .insert hnumber (Int.ofNat_lt.mp hpos) hfits (Nat.not_lt.mp hemail)⟩
    · exact ⟨_, .notPositive username email hnumber hrange.1 hvalue⟩
  · refine ⟨_, .number username email ?_⟩
    intro other hother
    rw [hother.unique hnumber]
    rcases Decidable.not_and_iff_or_not.mp hrange with h | h
    · exact Or.inl h
    · exact Or.inr (Int.not_le.mp h)

theorem exists_grammar_insert (line number username email : String) :
    ∃ result, Grammar line ["insert", number, username, email] result := by
  cases hvalue : Numeral.integer? number with
  | some value =>
      exact exists_grammar_of_states (Numeral.integer?_eq_some_iff.mp hvalue) line username email
  | none =>
      refine ⟨_, .number username email ?_⟩
      intro value hnumber
      rw [Numeral.integer?_eq_some_iff.mpr hnumber] at hvalue
      cases hvalue

/-- The grammar leaves no list of words out. -/
theorem exists_grammar (line : String) (tokens : List String) :
    ∃ result, Grammar line tokens result := by
  by_cases hselect : tokens.head? = some "select"
  · obtain ⟨arguments, rfl⟩ := List.head?_eq_some_iff.mp hselect
    cases arguments with
    | nil => exact ⟨_, .select⟩
    | cons argument arguments => exact ⟨_, .selectArguments argument arguments⟩
  · by_cases hinsert : tokens.head? = some "insert"
    · obtain ⟨arguments, rfl⟩ := List.head?_eq_some_iff.mp hinsert
      by_cases hlength : arguments.length = 3
      · match arguments, hlength with
        | [number, username, email], _ => exact exists_grammar_insert line number username email
      · exact ⟨_, .insertArguments hlength⟩
    · exact ⟨_, .unknownKeyword hselect hinsert⟩

theorem parse_eq_iff {line : String} {tokens : List String}
    (htokens : Blank.Splits line.toList tokens) {result : Except Rejection Statement} :
    parse line = result ↔ Grammar line tokens result := by
  obtain rfl := Blank.words_eq_iff.mpr htokens
  constructor
  · rintro rfl
    obtain ⟨result, hresult⟩ := exists_grammar line (Blank.words line)
    rwa [hresult.parse_eq]
  · exact Grammar.parse_eq

/-! ## What each result takes -/

/-- The words ask for an insertion with three arguments, of which the first states this integer. -/
def AsksInsert (tokens : List String) (value : Int) (username email : String) : Prop :=
  ∃ number, tokens = ["insert", number, username, email] ∧ Numeral.States number value

section Results

variable {line : String} {tokens : List String}

theorem grammar_select_iff : Grammar line tokens (.ok .select) ↔ tokens = ["select"] := by
  constructor
  · rintro ⟨⟩
    rfl
  · rintro rfl
    exact .select

theorem grammar_insert_iff {row : Row} :
    Grammar line tokens (.ok (.insert row)) ↔
      ∃ value, AsksInsert tokens value row.username row.email ∧
        1 ≤ value ∧ value ≤ 4294967295 ∧ row.username.utf8ByteSize ≤ 32 ∧
        row.email.utf8ByteSize ≤ 255 ∧ row.id.toNat = value := by
  constructor
  · intro h
    cases h with
    | insert hnumber hpos husername hemail =>
        have hlt := row.id.toNat_lt
        exact ⟨row.id.toNat, ⟨_, rfl, hnumber⟩, by omega, by omega, husername, hemail, rfl⟩
  · rintro ⟨value, ⟨number, rfl, hnumber⟩, hpos, -, husername, hemail, rfl⟩
    exact .insert hnumber (by omega) husername hemail

theorem grammar_unknownKeyword_iff {echoed : String} :
    Grammar line tokens (.error (.unknownKeyword echoed)) ↔
      echoed = line ∧ tokens.head? ≠ some "select" ∧ tokens.head? ≠ some "insert" := by
  constructor
  · intro h
    cases h with
    | unknownKeyword hselect hinsert => exact ⟨rfl, hselect, hinsert⟩
  · rintro ⟨rfl, hselect, hinsert⟩
    exact .unknownKeyword hselect hinsert

theorem grammar_malformed_iff :
    Grammar line tokens (.error .malformed) ↔
      (∃ argument arguments, tokens = "select" :: argument :: arguments) ∨
      (∃ arguments, tokens = "insert" :: arguments ∧ arguments.length ≠ 3) ∨
      ∃ number username email, tokens = ["insert", number, username, email] ∧
        ∀ value, Numeral.States number value → ¬ InSigned64 value ∨ 4294967295 < value := by
  constructor
  · intro h
    cases h with
    | selectArguments argument arguments => exact Or.inl ⟨argument, arguments, rfl⟩
    | insertArguments harguments => exact Or.inr (Or.inl ⟨_, rfl, harguments⟩)
    | number username email hnumber => exact Or.inr (Or.inr ⟨_, username, email, rfl, hnumber⟩)
  · rintro (⟨argument, arguments, rfl⟩ | ⟨arguments, rfl, harguments⟩ |
      ⟨number, username, email, rfl, hnumber⟩)
    · exact .selectArguments argument arguments
    · exact .insertArguments harguments
    · exact .number username email hnumber

theorem grammar_idNotPositive_iff :
    Grammar line tokens (.error .idNotPositive) ↔
      ∃ value username email, AsksInsert tokens value username email ∧
        InSigned64 value ∧ value ≤ 0 := by
  constructor
  · intro h
    cases h with
    | notPositive username email hnumber hrange hvalue =>
        exact ⟨_, username, email, ⟨_, rfl, hnumber⟩, hrange, hvalue⟩
  · rintro ⟨value, username, email, ⟨number, rfl, hnumber⟩, hrange, hvalue⟩
    exact .notPositive username email hnumber hrange hvalue

theorem grammar_textTooLong_iff :
    Grammar line tokens (.error .textTooLong) ↔
      ∃ value username email, AsksInsert tokens value username email ∧
        1 ≤ value ∧ value ≤ 4294967295 ∧
        (32 < username.utf8ByteSize ∨ 255 < email.utf8ByteSize) := by
  constructor
  · intro h
    cases h with
    | textTooLong hnumber hpos hvalue hlong =>
        exact ⟨_, _, _, ⟨_, rfl, hnumber⟩, hpos, hvalue, hlong⟩
  · rintro ⟨value, username, email, ⟨number, rfl, hnumber⟩, hpos, hvalue, hlong⟩
    exact .textTooLong hnumber hpos hvalue hlong

end Results

/-- A line is parsed to a listing or an insertion just if its words have the form of one, and each
reason to turn a line down has its own condition on the words. No other reasons come up. -/
theorem parse_follows_grammar (line : String) {tokens : List String}
    (htokens : Blank.Splits line.toList tokens) :
    (parse line = .ok .select ↔ tokens = ["select"]) ∧
    (∀ row, parse line = .ok (.insert row) ↔
      ∃ value, AsksInsert tokens value row.username row.email ∧
        1 ≤ value ∧ value ≤ 4294967295 ∧ row.username.utf8ByteSize ≤ 32 ∧
        row.email.utf8ByteSize ≤ 255 ∧ row.id.toNat = value) ∧
    (∀ echoed, parse line = .error (.unknownKeyword echoed) ↔
      echoed = line ∧ tokens.head? ≠ some "select" ∧ tokens.head? ≠ some "insert") ∧
    (parse line = .error .malformed ↔
      (∃ argument arguments, tokens = "select" :: argument :: arguments) ∨
      (∃ arguments, tokens = "insert" :: arguments ∧ arguments.length ≠ 3) ∨
      ∃ number username email, tokens = ["insert", number, username, email] ∧
        ∀ value, Numeral.States number value → ¬ InSigned64 value ∨ 4294967295 < value) ∧
    (parse line = .error .idNotPositive ↔
      ∃ value username email, AsksInsert tokens value username email ∧
        InSigned64 value ∧ value ≤ 0) ∧
    (parse line = .error .textTooLong ↔
      ∃ value username email, AsksInsert tokens value username email ∧
        1 ≤ value ∧ value ≤ 4294967295 ∧
        (32 < username.utf8ByteSize ∨ 255 < email.utf8ByteSize)) ∧
    parse line ≠ .error .tableFull ∧
    ∀ command, parse line ≠ .error (.unknownCommand command) := by
  have hparse {result : Except Rejection Statement} :
      parse line = result ↔ Grammar line tokens result := parse_eq_iff htokens
  refine ⟨hparse.trans grammar_select_iff, ?_, ?_, hparse.trans grammar_malformed_iff,
    hparse.trans grammar_idNotPositive_iff, hparse.trans grammar_textTooLong_iff, ?_, ?_⟩
  · intro row
    exact hparse.trans grammar_insert_iff
  · intro echoed
    exact hparse.trans grammar_unknownKeyword_iff
  · intro h
    cases hparse.mp h
  · intro command h
    cases hparse.mp h

/-- Blanks of several kinds, a sign and leading zeros stand in a line that is accepted. -/
theorem parse_follows_grammar_odd_blanks :
    Blank.Splits "\u3000insert\t+0007\u00a0ann  a@b\n".toList ["insert", "+0007", "ann", "a@b"] ∧
    parse "\u3000insert\t+0007\u00a0ann  a@b\n" = .ok (.insert ⟨7, "ann", "a@b"⟩) := by
  have htokens : Blank.Splits "\u3000insert\t+0007\u00a0ann  a@b\n".toList
      ["insert", "+0007", "ann", "a@b"] := Blank.words_eq_iff.mp (by decide +kernel)
  obtain ⟨-, hinsert, -⟩ := parse_follows_grammar _ htokens
  have hnumber : Numeral.States "+0007" 7 := Numeral.integer?_eq_some_iff.mp (by decide +kernel)
  exact ⟨htokens, (hinsert ⟨7, "ann", "a@b"⟩).mpr
    ⟨7, ⟨"+0007", rfl, hnumber⟩, by decide, by decide, by decide, by decide, rfl⟩⟩

/-! ## Integers of any size -/

section Integers

variable {line number username email : String} {value : Int}

theorem grammar_idNotPositive_iff_of_states (hnumber : Numeral.States number value) :
    Grammar line ["insert", number, username, email] (.error .idNotPositive) ↔
      InSigned64 value ∧ value ≤ 0 := by
  rw [grammar_idNotPositive_iff]
  constructor
  · rintro ⟨other, _, _, ⟨word, hwords, hother⟩, hrange, hvalue⟩
    cases hwords
    rw [hnumber.unique hother]
    exact ⟨hrange, hvalue⟩
  · rintro ⟨hrange, hvalue⟩
    exact ⟨value, username, email, ⟨number, rfl, hnumber⟩, hrange, hvalue⟩

theorem grammar_malformed_iff_of_states (hnumber : Numeral.States number value) :
    Grammar line ["insert", number, username, email] (.error .malformed) ↔
      ¬ InSigned64 value ∨ 4294967295 < value := by
  rw [grammar_malformed_iff]
  constructor
  · rintro (⟨argument, arguments, hwords⟩ | ⟨arguments, hwords, harguments⟩ |
      ⟨word, _, _, hwords, hall⟩)
    · exact absurd (List.cons.inj hwords).1 (by decide)
    · cases hwords
      exact absurd rfl harguments
    · cases hwords
      exact hall value hnumber
  · intro hvalue
    refine Or.inr (Or.inr ⟨number, username, email, rfl, ?_⟩)
    intro other hother
    rwa [hother.unique hnumber]

/-- An integer that is not positive has a rejection of its own, and one that is too large for a row
is refused like a word that is no integer. The line between them is drawn by the sign as far down
as the signed 64-bit range goes; below it, an integer is refused like a word that is none. -/
theorem parse_by_sign (htokens : Blank.Splits line.toList ["insert", number, username, email])
    (hnumber : Numeral.States number value) :
    (-9223372036854775808 ≤ value →
      (parse line = .error .idNotPositive ↔ value ≤ 0) ∧
      (parse line = .error .malformed ↔ 4294967295 < value)) ∧
    (value < -9223372036854775808 → parse line = .error .malformed) := by
  have hnotPositive := (parse_eq_iff htokens).trans (grammar_idNotPositive_iff_of_states hnumber)
  have hmalformed := (parse_eq_iff htokens).trans (grammar_malformed_iff_of_states hnumber)
  refine ⟨?_, ?_⟩
  · intro hleast
    rw [hnotPositive, hmalformed, InSigned64]
    omega
  · intro hbelow
    exact hmalformed.mpr (Or.inl fun hrange => Int.not_le.mpr hbelow hrange.1)

end Integers

/-- The least integer of the range is told from those below it. -/
theorem parse_by_sign_of_least :
    parse "insert -9223372036854775808 ann a@b" = .error .idNotPositive ∧
      parse "insert -9223372036854775809 ann a@b" = .error .malformed := by
  have htokens : Blank.Splits "insert -9223372036854775808 ann a@b".toList
      ["insert", "-9223372036854775808", "ann", "a@b"] := Blank.words_eq_iff.mp (by decide +kernel)
  have hbelow : Blank.Splits "insert -9223372036854775809 ann a@b".toList
      ["insert", "-9223372036854775809", "ann", "a@b"] := Blank.words_eq_iff.mp (by decide +kernel)
  have hnumber : Numeral.States "-9223372036854775808" (-9223372036854775808) :=
    Numeral.integer?_eq_some_iff.mp (by decide +kernel)
  have hother : Numeral.States "-9223372036854775809" (-9223372036854775809) :=
    Numeral.integer?_eq_some_iff.mp (by decide +kernel)
  exact ⟨((parse_by_sign htokens hnumber).1 (by decide)).1.mpr (by decide),
    (parse_by_sign hbelow hother).2 (by decide)⟩

/-- It is not the case that every integer up to zero is turned down as one, and that only those
which are too large are refused like a word that is no integer. -/
theorem not_parse_by_sign_alone :
    ¬ ∀ (line number username email : String) (value : Int),
      Blank.Splits line.toList ["insert", number, username, email] →
      Numeral.States number value →
      (parse line = .error .idNotPositive ↔ value ≤ 0) ∧
        (parse line = .error .malformed ↔ 4294967295 < value) := by
  intro hsign
  have htokens : Blank.Splits "insert -9223372036854775809 ann a@b".toList
      ["insert", "-9223372036854775809", "ann", "a@b"] := Blank.words_eq_iff.mp (by decide +kernel)
  have hnumber : Numeral.States "-9223372036854775809" (-9223372036854775809) :=
    Numeral.integer?_eq_some_iff.mp (by decide +kernel)
  have hparse : parse "insert -9223372036854775809 ann a@b" = .error .malformed :=
    (parse_eq_iff htokens).mpr
      ((grammar_malformed_iff_of_states hnumber).mpr (Or.inl (by decide)))
  have hlarge := (hsign _ _ _ _ _ htokens hnumber).2.mp hparse
  exact absurd hlarge (by decide)

end RowStore.Statement
