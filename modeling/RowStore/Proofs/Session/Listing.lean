import RowStore.Proofs.Session.Origin

/-! # What a listing tells

A listing puts a row between parentheses and commas, which may as well be part of
its texts, and quotes nothing. Still it tells all of every row: the blanks behind
the commas are the only ones in the line of a row, since no text of a row has
one, so they cut the line into its three parts.
-/

namespace RowStore

open Text Sink

namespace Row

theorem solid_id_part (row : Row) : Blank.Solid ("(" ++ Nat.repr row.id.toNat ++ ",") :=
  ((show Blank.Solid "(" by decide).append (Blank.solid_repr _)).append (by decide)

theorem Plain.solid_username_part {row : Row} (h : row.Plain) : Blank.Solid (row.username ++ ",") :=
  h.username.append (by decide)

theorem Plain.solid_email_part {row : Row} (h : row.Plain) : Blank.Solid (row.email ++ ")") :=
  h.email.append (by decide)

/-- The parts of a listed row, each without a blank if no text has one. -/
theorem toList_display (row : Row) :
    row.display.toList =
      ("(" ++ Nat.repr row.id.toNat ++ ",").toList ++
        ' ' :: ((row.username ++ ",").toList ++ ' ' :: (row.email ++ ")").toList) := by
  simp [display]

theorem Plain.countP_isBlank_display {row : Row} (h : row.Plain) :
    row.display.toList.countP Blank.isBlank = 2 := by
  have hspace : Blank.isBlank ' ' = true := by decide
  rw [toList_display, List.countP_append, List.countP_cons_of_pos hspace, List.countP_append,
    List.countP_cons_of_pos hspace, (solid_id_part row).countP_isBlank,
    h.solid_username_part.countP_isBlank, h.solid_email_part.countP_isBlank]

theorem Plain.newline_not_mem_display {row : Row} (h : row.Plain) :
    '\n' ∉ row.display.toList := by
  have hnewline : Blank.isBlank '\n' = true := by decide
  rw [toList_display, List.mem_append, List.mem_cons, List.mem_append, List.mem_cons]
  rintro (hid | hspace | husername | hspace | hemail)
  · exact (solid_id_part row).not_mem hnewline hid
  · cases hspace
  · exact h.solid_username_part.not_mem hnewline husername
  · cases hspace
  · exact h.solid_email_part.not_mem hnewline hemail

/-- The line of a listed row gives the row, and what is behind the line. -/
theorem Plain.display_inj {row other : Row} (hrow : row.Plain) (hother : other.Plain)
    {rest rest' : List Char}
    (h : row.display.toList ++ '\n' :: rest = other.display.toList ++ '\n' :: rest') :
    row = other ∧ rest = rest' := by
  obtain ⟨hdisplay, hrest⟩ :=
    append_cons_inj hrow.newline_not_mem_display hother.newline_not_mem_display h
  have hspace : Blank.isBlank ' ' = true := by decide
  rw [toList_display, toList_display] at hdisplay
  obtain ⟨hid, hlater⟩ := append_cons_inj ((solid_id_part row).not_mem hspace)
    ((solid_id_part other).not_mem hspace) hdisplay
  obtain ⟨husername, hemail⟩ := append_cons_inj (hrow.solid_username_part.not_mem hspace)
    (hother.solid_username_part.not_mem hspace) hlater
  refine ⟨?_, hrest⟩
  have hid : row.id = other.id := by
    apply UInt32.toNat_inj.mp
    apply Numeral.repr_inj
    apply String.toList_inj.mp
    simpa using hid
  have husername : row.username = other.username := by
    apply String.toList_inj.mp
    simpa using husername
  have hemail : row.email = other.email := by
    apply String.toList_inj.mp
    simpa using hemail
  cases row
  cases other
  rw [Row.mk.injEq]
  exact ⟨hid, husername, hemail⟩

/-- The text that lists some rows, one to a line. -/
def listing (rows : List Row) : String :=
  String.join (rows.map fun row => row.display ++ "\n") ++ Response.executed

theorem toList_listing_cons (row : Row) (rows : List Row) :
    (listing (row :: rows)).toList = row.display.toList ++ '\n' :: (listing rows).toList := by
  simp [listing]

theorem head?_listing_cons (row : Row) (rows : List Row) :
    (listing (row :: rows)).toList.head? = some '(' := by
  rw [toList_listing_cons, toList_display]
  simp

/-- Rows that a line can state are known from the text that lists them. -/
theorem listing_inj {rows others : List Row} (hrows : ∀ row ∈ rows, row.Plain)
    (hothers : ∀ row ∈ others, row.Plain) (h : listing rows = listing others) : rows = others := by
  induction rows generalizing others with
  | nil =>
      cases others with
      | nil => rfl
      | cons other others =>
          -- The last line does not begin with a parenthesis.
          have hhead := head?_listing_cons other others
          rw [← h] at hhead
          cases hhead
  | cons row rows ih =>
      cases others with
      | nil =>
          have hhead := head?_listing_cons row rows
          rw [h] at hhead
          cases hhead
      | cons other others =>
          have hlines := congrArg String.toList h
          rw [toList_listing_cons, toList_listing_cons] at hlines
          obtain ⟨hrow, hrest⟩ := (hrows row List.mem_cons_self).display_inj
            (hothers other List.mem_cons_self) hlines
          rw [hrow, ih (fun row hrow => hrows row (List.mem_cons_of_mem _ hrow))
            (fun row hrow => hothers row (List.mem_cons_of_mem _ hrow)) (String.toList_inj.mp hrest)]

end Row

namespace Table

/-- A line that asks for a listing shows all rows, to a sink that takes it all, and changes
nothing. -/
theorem Stores.deliver_listing {table : Table} {rows : List Row} (h : table.Stores rows)
    {line : String} (hline : Statement.parse line = .ok .select) {σ : Type} [Sink σ]
    (metered : Metered σ none) {sink : σ} (hsink : metered.Covers sink) :
    let turn := (table.respond (some line)).deliver sink
    turn.table = table ∧ turn.outcome = .ok .proceed ∧
      metered.written turn.sink =
        metered.written sink ++ Utf8.encode (Row.listing (rows.map Row.stored)) := by
  intro turn
  have hresponse := (table.respond_of_parse hline).trans (h.ofStatement_select line)
  obtain ⟨last, hwrite, hwritten, -⟩ :=
    metered.writeAll_of_within hsink (table.respond (some line)).text (within_none _)
  have htext : String.join (table.respond (some line)).text =
      Row.listing (rows.map Row.stored) := by
    rw [hresponse, String.join_append, join_singleton, Row.listing, List.map_map]
    rfl
  rw [htext] at hwritten
  simp only [turn, Response.deliver, hwrite]
  rw [hresponse]
  exact ⟨rfl, rfl, hwritten⟩

/-- A listing has a line for each row, in which the two blanks between the parts are the only ones,
and a last line. Two tables whose listings are the same have the same rows. This is not for want of
commas, parentheses and empty texts: of the rows without a blank and a NUL whose texts have room,
any one can be in a table. -/
theorem Reachable.listing_tells_rows {σ τ : Type} [Sink σ] [Sink τ] {table other : Table}
    (h : table.Reachable) (hother : other.Reachable) {line line' : String}
    (hline : Statement.parse line = .ok .select) (hline' : Statement.parse line' = .ok .select)
    (metered : Metered σ none) (metered' : Metered τ none) (sink : σ) (sink' : τ)
    (hsink : metered.Covers sink) (hsink' : metered'.Covers sink') :
    let turn := (table.respond (some line)).deliver sink
    let turn' := (other.respond (some line')).deliver sink'
    ∃ (rows rows' : List Row) (lines : List String) (shown shown' : List UInt8),
      table.rows = .ok rows ∧ other.rows = .ok rows' ∧
      turn.outcome = .ok .proceed ∧ turn'.outcome = .ok .proceed ∧
      metered.written turn.sink = metered.written sink ++ shown ∧
      metered'.written turn'.sink = metered'.written sink' ++ shown' ∧
      shown = Utf8.encode (String.join lines ++ "Executed.\n") ∧ lines.length = table.len ∧
      (∀ text ∈ lines, ∃ body, text = body ++ "\n" ∧ '\n' ∉ body.toList ∧
        body.toList.countP Blank.isBlank = 2) ∧
      (shown = shown' ↔ rows = rows') ∧
      ∀ row : Row, row.Storable → ∃ holder : Table, holder.Reachable ∧ holder.rows = .ok [row] := by
  intro turn turn'
  obtain ⟨rows, hstores, hplain⟩ := h.exists_plain
  obtain ⟨rows', hstores', hplain'⟩ := hother.exists_plain
  have hstored : ∀ row ∈ rows.map Row.stored, row.Plain := fun row hrow =>
    (Row.storable_of_mem_map_stored hplain row hrow).toPlain
  have hstored' : ∀ row ∈ rows'.map Row.stored, row.Plain := fun row hrow =>
    (Row.storable_of_mem_map_stored hplain' row hrow).toPlain
  obtain ⟨-, houtcome, hwritten⟩ := hstores.deliver_listing hline metered hsink
  obtain ⟨-, houtcome', hwritten'⟩ := hstores'.deliver_listing hline' metered' hsink'
  refine ⟨_, _, (rows.map Row.stored).map fun row => row.display ++ "\n", _, _, hstores.rows_eq,
    hstores'.rows_eq, houtcome, houtcome', hwritten, hwritten', ?_, ?_, ?_, ?_, ?_⟩
  · rw [Row.listing, Response.executed]
  · rw [List.length_map, List.length_map, hstores.len_eq]
  · intro text htext
    obtain ⟨row, hrow, rfl⟩ := List.mem_map.mp htext
    exact ⟨row.display, rfl, (hstored row hrow).newline_not_mem_display,
      (hstored row hrow).countP_isBlank_display⟩
  · constructor
    · intro hshown
      exact Row.listing_inj hstored hstored' (Utf8.encode_injective hshown)
    · intro hrows
      rw [hrows]
  · exact fun row hrow => hrow.exists_reachable

/-- A comma belongs to the text in front of the blank behind it, or to the text that it stands
in. -/
theorem listing_tells_rows_of_commas :
    let table := (empty.respond (some "insert 1 a,b c")).table
    let other := (empty.respond (some "insert 1 a b,c")).table
    table.rows = .ok [⟨1, "a,b", "c"⟩] ∧ other.rows = .ok [⟨1, "a", "b,c"⟩] ∧
      ((table.respond (some "select")).deliver ({} : Recorder)).sink.written.toList ≠
        ((other.respond (some "select")).deliver ({} : Recorder)).sink.written.toList := by
  intro table other
  have hselect : Statement.parse "select" = .ok .select := by
    rw [Statement.parse_of_select (by decide +kernel : Blank.words "select" = ["select"])]
    rfl
  have hrow : Ledger.answer [] "insert 1 a,b c" =
      some ([⟨1, "a,b", "c"⟩], "Executed.\n") := by
    decide +kernel
  have hrow' : Ledger.answer [] "insert 1 a b,c" =
      some ([⟨1, "a", "b,c"⟩], "Executed.\n") := by
    decide +kernel
  have htable : table.rows = .ok [⟨1, "a,b", "c"⟩] := (stores_empty.respond_of_answer hrow).1
  have hother : other.rows = .ok [⟨1, "a", "b,c"⟩] := (stores_empty.respond_of_answer hrow').1
  have hreachable : table.Reachable := .step .empty (some "insert 1 a,b c") ({} : Recorder)
  have hreachable' : other.Reachable := .step .empty (some "insert 1 a b,c") ({} : Recorder)
  clear_value table other
  obtain ⟨rows, rows', -, shown, shown', hrows, hrows', -, -, hwritten, hwritten', -, -, -, hshown,
    -⟩ :=
    hreachable.listing_tells_rows hreachable' hselect hselect
      (Recorder.metered {} (Limits.allowance_eq_none rfl) rfl)
      (Recorder.metered {} (Limits.allowance_eq_none rfl) rfl) {} {} rfl rfl
  refine ⟨htable, hother, ?_⟩
  intro hsame
  obtain rfl : [⟨1, "a,b", "c"⟩] = rows := Except.ok.inj (htable.symm.trans hrows)
  obtain rfl : [⟨1, "a", "b,c"⟩] = rows' := Except.ok.inj (hother.symm.trans hrows')
  rw [Recorder.written_metered, Recorder.written_metered] at hwritten hwritten'
  have hbytes := List.append_cancel_left (hwritten.symm.trans (hsame.trans hwritten'))
  exact absurd (hshown.mp hbytes) (by decide)

end Table

end RowStore
