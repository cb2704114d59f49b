import RowStore.Text.Blank

/-! # Cutting a text into words

A text of words is blanks and words by turns. There is one way to see it so,
and it is the one that `words` finds. Trimming a text takes blanks from its ends
and leaves the words, so what can be said of a trimmed text by its first
character, or by being one word, can be said of the words as well.
-/

namespace RowStore.Text.Blank

/-- The words of a text: runs of characters that are not blank, with blanks between any two of them
and, possibly, at both ends. -/
inductive Splits : List Char → List String → Prop
  | blanks {gap : List Char} (hgap : ∀ c ∈ gap, isBlank c = true) : Splits gap []
  | word {gap word rest : List Char} {words : List String} (hgap : ∀ c ∈ gap, isBlank c = true)
      (hne : word ≠ []) (hword : ∀ c ∈ word, isBlank c = false)
      (hend : ∀ c ∈ rest.head?, isBlank c = true) (hrest : Splits rest words) :
      Splits (gap ++ word ++ rest) (String.ofList word :: words)

/-! ## Words and blanks -/

/-- A blank parts the words before it from those behind it. -/
theorem words_append_cons {c : Char} (hc : isBlank c = true) (before after : List Char) :
    words (String.ofList (before ++ c :: after)) =
      words (String.ofList before) ++ words (String.ofList after) := by
  simp only [words, String.toList_ofList, List.splitOnP_append_cons _ _ hc, List.filter_append,
    List.map_append]

theorem words_cons {c : Char} (hc : isBlank c = true) (cs : List Char) :
    words (String.ofList (c :: cs)) = words (String.ofList cs) := by
  simpa using words_append_cons hc [] cs

theorem words_append_of_blank {gap : List Char} (hgap : ∀ c ∈ gap, isBlank c = true)
    (rest : List Char) : words (String.ofList (gap ++ rest)) = words (String.ofList rest) := by
  induction gap with
  | nil => rfl
  | cons c gap ih =>
      rw [List.cons_append, words_cons (hgap c List.mem_cons_self)]
      exact ih fun other hother => hgap other (List.mem_cons_of_mem c hother)

theorem words_of_not_blank {word : List Char} (hne : word ≠ [])
    (hword : ∀ c ∈ word, isBlank c = false) :
    words (String.ofList word) = [String.ofList word] := by
  rw [words, String.toList_ofList, List.splitOnP_eq_singleton hword, List.filter_cons_of_pos]
  · rfl
  · simpa using hne

/-! ## The one way to cut a text -/

theorem Splits.words_eq {cs : List Char} {tokens : List String} (h : Splits cs tokens) :
    words (String.ofList cs) = tokens := by
  induction h with
  | blanks hgap =>
      have hwords := words_append_of_blank hgap []
      rw [List.append_nil] at hwords
      exact hwords.trans words_empty
  | @word gap word rest _ hgap hne hword hend _ ih =>
      rw [List.append_assoc, words_append_of_blank hgap]
      -- The rest is empty, or it begins with a blank, which ends the word.
      cases rest with
      | nil =>
          rw [List.append_nil, words_of_not_blank hne hword, ← ih]
          exact congrArg _ words_empty.symm
      | cons c rest =>
          have hc : isBlank c = true := hend c rfl
          rw [words_cons hc] at ih
          rw [words_append_cons hc, words_of_not_blank hne hword, ih]
          rfl

theorem Splits.cons_blank {c : Char} (hc : isBlank c = true) {cs : List Char}
    {tokens : List String} (h : Splits cs tokens) : Splits (c :: cs) tokens := by
  have hcons {gap : List Char} (hgap : ∀ c ∈ gap, isBlank c = true) :
      ∀ other ∈ c :: gap, isBlank other = true := List.forall_mem_cons.mpr ⟨hc, hgap⟩
  cases h with
  | blanks hgap => exact .blanks (hcons hgap)
  | word hgap hne hword hend hrest => exact .word (hcons hgap) hne hword hend hrest

theorem Splits.exists_cons {c : Char} (hc : isBlank c = false) {cs : List Char}
    {tokens : List String} (h : Splits cs tokens) : ∃ tokens, Splits (c :: cs) tokens := by
  by_cases hend : ∀ next ∈ cs.head?, isBlank next = true
  · -- The character is a word of its own.
    have hcut : Splits ([] ++ [c] ++ cs) (String.ofList [c] :: tokens) :=
      .word (by simp) (List.cons_ne_nil c []) (by simpa using hc) hend h
    exact ⟨_, hcut⟩
  · cases h with
    | @blanks gap hgap =>
        exact absurd (fun next hnext => hgap next (List.mem_of_mem_head? hnext)) hend
    | @word gap word rest later hgap hne hword hstop hrest =>
        -- The next character is not blank, so it begins a word, which this one joins.
        cases gap with
        | nil =>
            have hcut : Splits ([] ++ c :: word ++ rest) (String.ofList (c :: word) :: later) :=
              .word (by simp) (List.cons_ne_nil c word) (List.forall_mem_cons.mpr ⟨hc, hword⟩)
                hstop hrest
            exact ⟨_, hcut⟩
        | cons blank gap =>
            refine absurd (fun next hnext => ?_) hend
            obtain rfl := Option.some.inj hnext
            exact hgap blank List.mem_cons_self

theorem exists_splits (cs : List Char) : ∃ tokens, Splits cs tokens := by
  induction cs with
  | nil => exact ⟨[], .blanks (by simp)⟩
  | cons c cs ih =>
      obtain ⟨tokens, h⟩ := ih
      cases hc : isBlank c with
      | true => exact ⟨tokens, h.cons_blank hc⟩
      | false => exact h.exists_cons hc

theorem splits_words (text : String) : Splits text.toList (words text) := by
  obtain ⟨tokens, hsplits⟩ := exists_splits text.toList
  have hwords := hsplits.words_eq
  rw [String.ofList_toList] at hwords
  rwa [hwords]

/-- A text has one list of words. -/
theorem words_eq_iff {text : String} {tokens : List String} :
    words text = tokens ↔ Splits text.toList tokens := by
  constructor
  · rintro rfl
    exact splits_words text
  · intro h
    rw [← h.words_eq, String.ofList_toList]

/-- A text that does not begin with a blank begins with its first word. -/
theorem Splits.exists_cons_of_head? {c : Char} (hc : isBlank c = false) {cs : List Char}
    {tokens : List String} (h : Splits cs tokens) (hhead : cs.head? = some c) :
    ∃ word later, tokens = word :: later ∧ word.toList.head? = some c := by
  have hnot {gap : List Char} (hgap : ∀ c ∈ gap, isBlank c = true) : c ∉ gap := by
    intro hmem
    rw [hgap c hmem] at hc
    cases hc
  cases h with
  | blanks hgap => exact absurd (List.mem_of_mem_head? hhead) (hnot hgap)
  | @word gap word rest later hgap hne hword hend hrest =>
      cases gap with
      | nil =>
          obtain ⟨first, letters, rfl⟩ := List.exists_cons_of_ne_nil hne
          exact ⟨_, later, rfl, by rwa [String.toList_ofList]⟩
      | cons blank gap =>
          obtain rfl := Option.some.inj hhead
          exact absurd List.mem_cons_self (hnot hgap)

/-! ## Texts without blanks -/

/-- No character of the text is blank. -/
def Solid (text : String) : Prop :=
  ∀ c ∈ text.toList, isBlank c = false

instance (text : String) : Decidable (Solid text) :=
  List.decidableBAll (fun c => isBlank c = false) text.toList

theorem Solid.not_mem {text : String} (h : Solid text) {c : Char} (hc : isBlank c = true) :
    c ∉ text.toList := by
  intro hmem
  rw [h c hmem] at hc
  cases hc

theorem Solid.append {first second : String} (hfirst : Solid first) (hsecond : Solid second) :
    Solid (first ++ second) := by
  intro c hc
  rw [String.toList_append] at hc
  exact (List.mem_append.mp hc).elim (hfirst c) (hsecond c)

theorem Solid.countP_isBlank {text : String} (h : Solid text) : text.toList.countP isBlank = 0 :=
  List.countP_eq_zero.mpr fun c hc => Bool.eq_false_iff.mp (h c hc)

theorem Splits.solid {cs : List Char} {tokens : List String} (h : Splits cs tokens) :
    ∀ word ∈ tokens, Solid word := by
  induction h with
  | blanks => exact fun word hword => absurd hword List.not_mem_nil
  | word hgap hne hword hend hrest ih =>
      intro other hother
      rcases List.mem_cons.mp hother with rfl | hlater
      · rwa [Solid, String.toList_ofList]
      · exact ih other hlater

theorem solid_of_mem_words {text word : String} (h : word ∈ words text) : Solid word :=
  (splits_words text).solid word h

theorem isBlank_of_isDigit {c : Char} (h : c.isDigit = true) : isBlank c = false := by
  have hdigits : ∀ n < 58, 48 ≤ n → ranges.contains n = false := by decide
  simp only [Char.isDigit, Bool.and_eq_true, decide_eq_true_eq] at h
  exact hdigits c.toNat (Nat.lt_succ_of_le h.2) h.1

/-- A text without blanks is its only word, unless it is empty. -/
theorem words_of_solid {text : String} (h : Solid text) :
    words text = if text = "" then [] else [text] := by
  split
  next hempty => rw [hempty, words_empty]
  next hne =>
    have hchars : text.toList ≠ [] := by simpa using hne
    have hwords := words_of_not_blank hchars h
    rwa [String.ofList_toList] at hwords

theorem solid_repr (n : Nat) : Solid (Nat.repr n) := by
  intro c hc
  rw [Nat.toList_repr] at hc
  exact isBlank_of_isDigit (Nat.isDigit_of_mem_toDigits (by decide) (by decide) hc)

theorem words_repr (n : Nat) : words (Nat.repr n) = [Nat.repr n] := by
  rw [words_of_solid (solid_repr n), if_neg Nat.repr_ne_empty]

theorem words_append_space (first second : String) :
    words (first ++ " " ++ second) = words first ++ words second := by
  have hcut := words_append_cons (c := ' ') (by decide) first.toList second.toList
  rw [String.ofList_toList, String.ofList_toList] at hcut
  rw [← hcut]
  apply congrArg words
  apply String.toList_inj.mp
  simp

/-! ## Trimmed texts -/

theorem isBlank_of_mem_takeWhile {cs : List Char} {c : Char} (h : c ∈ cs.takeWhile isBlank) :
    isBlank c = true :=
  List.all_eq_true.mp List.all_takeWhile c h

theorem isBlank_of_head?_dropWhile {cs : List Char} {c : Char}
    (h : (cs.dropWhile isBlank).head? = some c) : isBlank c = false := by
  have hhead := List.head?_dropWhile_not isBlank cs
  rwa [h] at hhead

/-- Without the blanks in front of it, a text is the trimmed text and blanks. -/
theorem exists_dropWhile_eq_trim (text : String) :
    ∃ tail, text.toList.dropWhile isBlank = (trim text).toList ++ tail ∧
      ∀ c ∈ tail, isBlank c = true := by
  refine ⟨((text.toList.dropWhile isBlank).reverse.takeWhile isBlank).reverse, ?_, ?_⟩
  · rw [trim, String.toList_ofList, ← List.reverse_append, List.takeWhile_append_dropWhile,
      List.reverse_reverse]
  · intro c hc
    exact isBlank_of_mem_takeWhile (List.mem_reverse.mp hc)

theorem isBlank_of_head?_trim {text : String} {c : Char}
    (h : (trim text).toList.head? = some c) : isBlank c = false := by
  obtain ⟨tail, htail, -⟩ := exists_dropWhile_eq_trim text
  have hhead : (text.toList.dropWhile isBlank).head? = some c := by
    rw [htail, List.head?_append, h]
    rfl
  exact isBlank_of_head?_dropWhile hhead

theorem isBlank_of_getLast?_trim {text : String} {c : Char}
    (h : (trim text).toList.getLast? = some c) : isBlank c = false := by
  rw [trim, String.toList_ofList, List.getLast?_reverse] at h
  exact isBlank_of_head?_dropWhile h

theorem words_append_blanks (cs : List Char) {tail : List Char}
    (htail : ∀ c ∈ tail, isBlank c = true) :
    words (String.ofList (cs ++ tail)) = words (String.ofList cs) := by
  cases tail with
  | nil => rw [List.append_nil]
  | cons c tail =>
      have hrest : words (String.ofList tail) = [] :=
        (Splits.blanks fun other hother => htail other (List.mem_cons_of_mem c hother)).words_eq
      rw [words_append_cons (htail c List.mem_cons_self), hrest, List.append_nil]

/-- Trimming a text keeps its words. -/
theorem words_trim (text : String) : words (trim text) = words text := by
  obtain ⟨tail, htail, hblank⟩ := exists_dropWhile_eq_trim text
  calc words (trim text)
      = words (String.ofList (trim text).toList) := by rw [String.ofList_toList]
    _ = words (String.ofList (text.toList.dropWhile isBlank)) := by
        rw [htail, words_append_blanks _ hblank]
    _ = words (String.ofList (text.toList.takeWhile isBlank ++ text.toList.dropWhile isBlank)) :=
        (words_append_of_blank (fun _ => isBlank_of_mem_takeWhile) _).symm
    _ = words text := by rw [List.takeWhile_append_dropWhile, String.ofList_toList]

/-- A trimmed text of one word is that word. -/
theorem trim_eq_of_words_eq_singleton {text word : String} (h : words text = [word]) :
    trim text = word := by
  have hsplits := splits_words (trim text)
  rw [words_trim, h] at hsplits
  generalize hcs : (trim text).toList = cs at hsplits
  cases hsplits with
  | @word gap letters rest _ hgap hne hword hend hrest =>
      cases hrest with
      | blanks hrest =>
        -- There are no blanks before the word or behind it, since the text is trimmed.
        have hgap : gap = [] := by
          cases gap with
          | nil => rfl
          | cons c gap =>
              have hblank := hgap c List.mem_cons_self
              rw [isBlank_of_head?_trim (by rw [hcs]; rfl)] at hblank
              cases hblank
        have hrest : rest = [] := by
          cases hlast : rest.getLast? with
          | none => exact List.getLast?_eq_none_iff.mp hlast
          | some c =>
              have hblank := hrest c (List.mem_of_getLast? hlast)
              rw [isBlank_of_getLast?_trim (by rw [hcs, List.getLast?_append, hlast]; rfl)] at hblank
              cases hblank
        rw [hgap, hrest, List.nil_append, List.append_nil] at hcs
        rw [← hcs, String.ofList_toList]

/-- A trimmed text begins with the first character of its first word. -/
theorem head?_trim (text : String) :
    (trim text).toList.head? = (words text).head?.bind fun word => word.toList.head? := by
  have hsplits := splits_words (trim text)
  cases hhead : (trim text).toList.head? with
  | none =>
      have hempty : trim text = "" := by simpa using hhead
      rw [← words_trim, hempty, words_empty]
      rfl
  | some c =>
      obtain ⟨word, later, hwords, hword⟩ :=
        hsplits.exists_cons_of_head? (isBlank_of_head?_trim hhead) hhead
      rw [← words_trim, hwords]
      exact hword.symm

end RowStore.Text.Blank
