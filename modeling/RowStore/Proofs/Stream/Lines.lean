import RowStore.Proofs.Text.Newline

/-! # Lines of bytes

Where the chunks of a source begin and end has no influence on what is read. The
next line is a matter of the pending bytes alone: it goes through their first
newline. Whether it is valid, and what is left of it without blanks at its ends,
can be asked of the bytes before the newline.
-/

namespace RowStore

open Text

namespace Source

/-! ## Pieces -/

theorem ne_newline_of_mem {bytes : List UInt8} (h : newline ∉ bytes) :
    ∀ byte ∈ bytes, (byte != newline) = true := by
  intro byte hbyte
  rw [bne_iff_ne]
  rintro rfl
  exact h hbyte

theorem takeWhile_append_newline {line : List UInt8} (rest : List UInt8) (h : newline ∉ line) :
    (line ++ newline :: rest).takeWhile (· != newline) = line := by
  rw [List.takeWhile_append_of_pos (ne_newline_of_mem h), List.takeWhile_cons_of_neg (by simp),
    List.append_nil]

theorem dropWhile_append_newline {line : List UInt8} (rest : List UInt8) (h : newline ∉ line) :
    (line ++ newline :: rest).dropWhile (· != newline) = newline :: rest := by
  rw [List.dropWhile_append_of_pos (ne_newline_of_mem h), List.dropWhile_cons_of_neg (by simp)]

theorem dropWhile_of_not_mem {bytes : List UInt8} (h : newline ∉ bytes) :
    bytes.dropWhile (· != newline) = [] := by
  have happend : (bytes ++ []).dropWhile (· != newline) = [].dropWhile (· != newline) :=
    List.dropWhile_append_of_pos (ne_newline_of_mem h)
  rwa [List.append_nil] at happend

theorem takeLine_of_newline (taken : Array UInt8) {chunks : List (List UInt8)}
    {line rest : List UInt8} (hchunks : chunks.flatten = line ++ newline :: rest)
    (hline : newline ∉ line) :
    (takeLine taken chunks).terminated = true ∧
      (takeLine taken chunks).bytes.toList = taken.toList ++ line ++ [newline] ∧
      (takeLine taken chunks).rest.flatten = rest := by
  induction chunks generalizing taken line with
  | nil => simp at hchunks
  | cons chunk chunks ih =>
      rw [List.flatten_cons] at hchunks
      by_cases hmem : newline ∈ chunk
      · -- The line ends in this chunk, and what is left of it is put back.
        obtain ⟨before, after, rfl, hbefore⟩ := List.eq_append_cons_of_mem hmem
        rw [List.append_assoc, List.cons_append] at hchunks
        obtain ⟨rfl, hrest⟩ := append_cons_inj hbefore hline hchunks
        simp only [takeLine, dropWhile_append_newline _ hbefore, takeWhile_append_newline _ hbefore,
          Array.toList_push, Array.toList_appendList, List.flatten_cons, true_and]
        exact hrest
      · -- The line goes on behind this chunk.
        obtain ⟨more, rfl, hmore⟩ :
            ∃ more, line = chunk ++ more ∧ chunks.flatten = more ++ newline :: rest := by
          rcases List.append_eq_append_iff.mp hchunks with
            ⟨more, hmore, hflatten⟩ | ⟨more, rfl, hflatten⟩
          · exact ⟨more, hmore, hflatten⟩
          · cases more with
            | nil => exact ⟨[], by simp, by simpa using hflatten.symm⟩
            | cons first more =>
                obtain ⟨rfl, -⟩ := List.cons.inj hflatten
                exact absurd (List.mem_append_right _ List.mem_cons_self) hmem
        have hrest := ih (taken ++ chunk) hmore (fun h => hline (List.mem_append_right _ h))
        simp only [takeLine, dropWhile_of_not_mem hmem]
        simpa using hrest

theorem takeLine_of_not_mem (taken : Array UInt8) {chunks : List (List UInt8)}
    (h : newline ∉ chunks.flatten) :
    (takeLine taken chunks).terminated = false ∧
      (takeLine taken chunks).bytes.toList = taken.toList ++ chunks.flatten ∧
      (takeLine taken chunks).rest = [] := by
  induction chunks generalizing taken with
  | nil => simp [takeLine]
  | cons chunk chunks ih =>
      rw [List.flatten_cons, List.mem_append, not_or] at h
      have hrest := ih (taken ++ chunk) h.2
      simp only [takeLine, dropWhile_of_not_mem h.1]
      simpa using hrest

/-! ## Readings -/

theorem readLine_of_newline {source : Source} {line rest : List UInt8}
    (hpending : source.pending = line ++ newline :: rest) (hline : newline ∉ line) :
    ∃ next, source.readLine = (Reading.ofBytes (line ++ [newline]).toArray, next) ∧
      next.pending = rest ∧ next.ending = source.ending := by
  obtain ⟨hterminated, hbytes, hrest⟩ := takeLine_of_newline #[] hpending hline
  refine ⟨{ source with chunks := (takeLine #[] source.chunks).rest }, ?_, hrest, rfl⟩
  have hpiece : (takeLine #[] source.chunks).bytes = (line ++ [newline]).toArray :=
    Array.toList_inj.mp hbytes
  rw [readLine, hpiece]
  simp only [hterminated, if_true]

theorem readLine_of_failure {source : Source} (hpending : newline ∉ source.pending)
    {message : String} {hidden : Nat} (hending : source.ending = .failure message hidden) :
    ∃ next, source.readLine = (.failed message, next) ∧
      next.pending = [] ∧ next.ending = source.ending := by
  obtain ⟨hterminated, -, hrest⟩ := takeLine_of_not_mem #[] hpending
  refine ⟨{ source with chunks := (takeLine #[] source.chunks).rest }, ?_, ?_, rfl⟩
  · simp [readLine, hterminated, hending]
  · rw [pending, hrest, List.flatten_nil]

theorem readLine_of_nil {source : Source} (hpending : source.pending = [])
    (hending : source.ending = .complete) :
    ∃ next, source.readLine = (.ended, next) ∧
      next.pending = [] ∧ next.ending = source.ending := by
  have hnot : newline ∉ source.chunks.flatten := by
    rw [show source.chunks.flatten = [] from hpending]
    exact List.not_mem_nil
  obtain ⟨hterminated, hbytes, hrest⟩ := takeLine_of_not_mem #[] hnot
  refine ⟨{ source with chunks := (takeLine #[] source.chunks).rest }, ?_, ?_, rfl⟩
  · rw [show source.chunks.flatten = [] from hpending] at hbytes
    have hempty : (takeLine #[] source.chunks).bytes = #[] := by simpa using hbytes
    simp [readLine, hterminated, hending, hempty]
  · rw [pending, hrest, List.flatten_nil]

theorem readLine_of_tail {source : Source} {tail : List UInt8} (hpending : source.pending = tail)
    (htail : newline ∉ tail) (hne : tail ≠ []) (hending : source.ending = .complete) :
    ∃ next, source.readLine = (Reading.ofBytes tail.toArray, next) ∧
      next.pending = [] ∧ next.ending = source.ending := by
  subst tail
  obtain ⟨hterminated, hbytes, hrest⟩ := takeLine_of_not_mem #[] htail
  refine ⟨{ source with chunks := (takeLine #[] source.chunks).rest }, ?_, ?_, rfl⟩
  · have hpiece : (takeLine #[] source.chunks).bytes = source.pending.toArray :=
      Array.toList_inj.mp hbytes
    rw [readLine, hpiece]
    simp [hterminated, hending, hne]
  · rw [pending, hrest, List.flatten_nil]

/-- The bytes behind so many lines, each with its newline. -/
def dropLines : Nat → List UInt8 → List UInt8
  | 0, bytes => bytes
  | count + 1, bytes => dropLines count ((bytes.dropWhile (· != newline)).drop 1)

/-- Reading a line takes the line and nothing else. -/
theorem pending_of_line {source rest : Source} {text : String}
    (h : source.readLine = (.line text, rest)) :
    rest.pending = dropLines 1 source.pending ∧ rest.ending = source.ending := by
  by_cases hmem : newline ∈ source.pending
  · obtain ⟨line, behind, hpending, hline⟩ := List.eq_append_cons_of_mem hmem
    obtain ⟨next, hread, hnext, hending⟩ := readLine_of_newline hpending hline
    rw [h] at hread
    obtain ⟨-, rfl⟩ := Prod.mk.inj hread
    rw [hnext, hpending, dropLines, dropWhile_append_newline _ hline]
    exact ⟨rfl, hending⟩
  · rw [dropLines, dropWhile_of_not_mem hmem]
    match hending : source.ending with
    | .failure message hidden =>
        obtain ⟨next, hread, -, -⟩ := readLine_of_failure hmem hending
        rw [h] at hread
        cases hread
    | .complete =>
        by_cases hnil : source.pending = []
        · obtain ⟨next, hread, -, -⟩ := readLine_of_nil hnil hending
          rw [h] at hread
          cases hread
        · obtain ⟨next, hread, hnext, hclose⟩ := readLine_of_tail rfl hmem hnil hending
          rw [h] at hread
          obtain ⟨-, rfl⟩ := Prod.mk.inj hread
          exact ⟨hnext, hclose.trans hending⟩

/-- Two sources hold the same bytes and end in the same way, but may differ in their chunks. -/
def Alike (source other : Source) : Prop :=
  source.pending = other.pending ∧ source.ending = other.ending

/-- The next line, and what is behind it, is a matter of the pending bytes and of the ending. -/
theorem exists_reading (pending : List UInt8) (ending : Ending) :
    ∃ reading behind, ∀ source : Source, source.pending = pending → source.ending = ending →
      ∃ next, source.readLine = (reading, next) ∧ next.pending = behind ∧ next.ending = ending := by
  by_cases hmem : newline ∈ pending
  · obtain ⟨line, rest, rfl, hline⟩ := List.eq_append_cons_of_mem hmem
    refine ⟨Reading.ofBytes (line ++ [newline]).toArray, rest, ?_⟩
    intro source hpending hending
    obtain ⟨next, hread, hnext, hclose⟩ := readLine_of_newline hpending hline
    exact ⟨next, hread, hnext, hclose.trans hending⟩
  · cases ending with
    | failure message hidden =>
        refine ⟨.failed message, [], ?_⟩
        intro source hpending hending
        obtain ⟨next, hread, hnext, hclose⟩ := readLine_of_failure (hpending ▸ hmem) hending
        exact ⟨next, hread, hnext, hclose.trans hending⟩
    | complete =>
        by_cases hnil : pending = []
        · refine ⟨.ended, [], ?_⟩
          intro source hpending hending
          obtain ⟨next, hread, hnext, hclose⟩ := readLine_of_nil (hpending.trans hnil) hending
          exact ⟨next, hread, hnext, hclose.trans hending⟩
        · refine ⟨Reading.ofBytes pending.toArray, [], ?_⟩
          intro source hpending hending
          obtain ⟨next, hread, hnext, hclose⟩ := readLine_of_tail hpending hmem hnil hending
          exact ⟨next, hread, hnext, hclose.trans hending⟩

/-- The chunks of a source have no influence on the next line, nor on the bytes behind it. -/
theorem Alike.readLine {source other : Source} (h : source.Alike other) :
    ∃ reading next next', source.readLine = (reading, next) ∧ other.readLine = (reading, next') ∧
      next.Alike next' := by
  obtain ⟨hpending, hending⟩ := h
  obtain ⟨reading, behind, hreading⟩ := exists_reading other.pending other.ending
  obtain ⟨next, hread, hnext, hclose⟩ := hreading source hpending hending
  obtain ⟨next', hread', hnext', hclose'⟩ := hreading other rfl rfl
  exact ⟨reading, next, next', hread, hread', hnext.trans hnext'.symm, hclose.trans hclose'.symm⟩

/-! ## Texts of lines -/

/-- The text of a line without the blanks at its ends, if its bytes are valid. -/
def text? (line : List UInt8) : Option String :=
  (Utf8.decode? line.toArray).map Blank.trim

theorem text?_encode (text : String) : text? (Utf8.encode text) = some (Blank.trim text) := by
  rw [text?, Utf8.decode?_encode]
  rfl

theorem text?_eq_some_iff {line : List UInt8} {text : String} :
    text? line = some text ↔
      ∃ raw, Reading.ofBytes (line ++ [newline]).toArray = .line raw ∧ Blank.trim raw = text := by
  rw [text?, Reading.ofBytes, Utf8.decode?_append_newline]
  cases Utf8.decode? line.toArray with
  | none => simp
  | some raw => simp [Blank.trim_append_newline]

theorem text?_eq_none_iff {line : List UInt8} :
    text? line = none ↔
      Reading.ofBytes (line ++ [newline]).toArray = .failed invalidText := by
  rw [text?, Reading.ofBytes, Utf8.decode?_append_newline]
  cases Utf8.decode? line.toArray with
  | none => simp
  | some raw => simp

/-- The lines of the bytes that end with a newline, in order and each without it. -/
def wholeLines (bytes : List UInt8) : List (List UInt8) :=
  (bytes.splitOn newline).dropLast

theorem wholeLines_of_not_mem {bytes : List UInt8} (h : newline ∉ bytes) :
    wholeLines bytes = [] := by
  rw [wholeLines, List.splitOn_eq_singleton h]
  rfl

theorem wholeLines_append_newline {line : List UInt8} (rest : List UInt8) (h : newline ∉ line) :
    wholeLines (line ++ newline :: rest) = line :: wholeLines rest := by
  rw [wholeLines, List.splitOn_append_cons_self_of_not_mem h,
    List.dropLast_cons_of_ne_nil (List.splitOn_ne_nil _ _)]
  rfl

theorem wholeLines_eq_nil_iff {bytes : List UInt8} :
    wholeLines bytes = [] ↔ newline ∉ bytes := by
  refine ⟨?_, wholeLines_of_not_mem⟩
  intro h hmem
  obtain ⟨line, rest, rfl, hline⟩ := List.eq_append_cons_of_mem hmem
  rw [wholeLines_append_newline rest hline] at h
  cases h

/-- A whole line is found in the bytes, with its newline and before what comes behind it. -/
theorem eq_append_of_wholeLines_eq_cons {bytes line : List UInt8} {more : List (List UInt8)}
    (h : wholeLines bytes = line :: more) :
    ∃ rest, bytes = line ++ newline :: rest ∧ newline ∉ line ∧ wholeLines rest = more := by
  by_cases hmem : newline ∈ bytes
  · obtain ⟨first, rest, rfl, hfirst⟩ := List.eq_append_cons_of_mem hmem
    rw [wholeLines_append_newline rest hfirst] at h
    obtain ⟨rfl, hmore⟩ := List.cons.inj h
    exact ⟨rest, rfl, hfirst, hmore⟩
  · rw [wholeLines_of_not_mem hmem] at h
    cases h

/-- More bytes add lines only behind those that are whole already. -/
theorem wholeLines_prefix_append (bytes more : List UInt8) :
    wholeLines bytes <+: wholeLines (bytes ++ more) := by
  induction hlines : wholeLines bytes generalizing bytes with
  | nil => exact List.nil_prefix
  | cons line lines ih =>
      obtain ⟨rest, rfl, hline, rfl⟩ := eq_append_of_wholeLines_eq_cons hlines
      rw [List.append_assoc, List.cons_append, wholeLines_append_newline _ hline]
      exact List.cons_prefix_cons.mpr ⟨rfl, ih rest rfl⟩

/-! ## What a source shows -/

/-- A source that holds these bytes, in any chunks, and whose reading fails when bytes at a place
or behind it are asked for. If the place is behind the end, or there is none, it never fails. -/
def Shows (source : Source) (bytes : List UInt8) : Option (Nat × String) → Prop
  | none => source.pending = bytes ∧ source.ending = .complete
  | some (place, message) =>
      if place ≤ bytes.length then
        source.pending = bytes.take place ∧
          source.ending = .failure message (bytes.length - place)
      else source.pending = bytes ∧ source.ending = .complete

theorem shows_ofBytes (bytes : List UInt8) (chunkSize : Option Nat)
    (failure : Option (Nat × String)) : (ofBytes bytes chunkSize failure).Shows bytes failure := by
  match failure with
  | none => exact ⟨flatten_split chunkSize bytes, rfl⟩
  | some (place, message) =>
      rw [Shows, ofBytes]
      split
      next => exact ⟨flatten_split chunkSize _, rfl⟩
      next => exact ⟨flatten_split chunkSize _, rfl⟩

end Source

end RowStore
