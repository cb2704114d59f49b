import RowStore.Proofs.Session.Growth
import RowStore.Proofs.Session.Storing

/-! # The rules of the store are kept

Each rule of the store is checked where it could be broken, far from what keeps
it: a page is looked up by the number of rows, a text is copied whatever its
size, a cursor is asked for the rows before its end. What keeps the rules is
where rows and cursors come from. A row is parsed before it is inserted, so its
texts have room; a full table refuses rows, so there is a page for each; and a
cursor does not move past the end.
-/

namespace RowStore

open Layout Text Sink

namespace Page

theorem ofBytes_of_slot {page : Page} {index : Nat} {slot : Slot} (h : page.slot index = .ok slot) :
    Slot.ofBytes ((page.bytes.toList.drop (index * rowSize)).take rowSize) = .ok slot := by
  rw [toList_of_slot h, Slot.ofBytes, dif_pos Vector.length_toList]
  rfl

end Page

/-- The place of a row lies on one of the pages, inside of it, and has the size of a row. -/
theorem Layout.place_inside {n : Nat} (h : n < maxRows) :
    n / 14 < 100 ∧ n % 14 * 291 + 291 ≤ 4096 ∧
      ∀ page : Page, ∃ slot, page.slot (n % 14) = .ok slot ∧
        Slot.ofBytes ((page.bytes.toList.drop (n % 14 * 291)).take 291) = .ok slot := by
  have hn : n < 1400 := h
  refine ⟨by omega, by omega, ?_⟩
  intro page
  obtain ⟨slot, hslot⟩ := page.slot_eq_ok (Nat.mod_lt n (show 0 < rowsPerPage by decide))
  exact ⟨slot, hslot, Page.ofBytes_of_slot hslot⟩

namespace Table

theorem Sound.exists_outcome {table : Table} (h : table.Sound) (line : Option String) :
    ∃ next, (table.respond line).outcome = .ok next := by
  cases line with
  | none => exact ⟨.exit, rfl⟩
  | some line =>
      by_cases hexit : line = Response.exitCommand
      · exact ⟨.exit, outcome_respond_eq_exit_iff.mpr hexit⟩
      · exact ⟨.proceed, (h.respond hexit).1⟩

theorem Sound.afterAll {table : Table} (h : table.Sound) (lines : List (Option String)) :
    (table.afterAll lines).Sound :=
  afterAll_of_respond (fun _ line hsound => hsound.respond_any line) h lines

end Table

namespace Response

variable {σ : Type} [Sink σ]

theorem outcome_deliver (response : Response) (sink : σ) :
    (response.deliver sink).outcome = response.outcome ∨
      ∃ message, (response.deliver sink).outcome = .error (.stream message) := by
  rw [deliver]
  rcases Sink.writeAll sink response.text with ⟨last, message | -⟩
  · exact Or.inr ⟨message, rfl⟩
  · exact Or.inl rfl

end Response

namespace Session

variable {σ : Type} [Sink σ]

/-- A session on a table that was filled by appending rows breaks no rule. -/
theorem outcome_run (session : Session σ) (h : session.table.Sound) :
    session.run.2 = .ok () ∨ ∃ message, session.run.2 = .error (.stream message) := by
  match hcycle : session.cycle with
  | (next, none) =>
      have htable : next.table.Sound := by
        rw [← congrArg (·.1.table) hcycle, session.table_cycle]
        exact h.afterAll _
      rw [run_of_cycle_none hcycle]
      exact outcome_run next htable
  | (last, some outcome) =>
      -- A breach would be the outcome of a response, and no response has one.
      rw [run_of_cycle_some hcycle]
      rcases session.cycle_cases with ⟨rest, sink, message, -, hfailed⟩ |
        ⟨rest, sink, line, -, hanswer⟩
      · exact Or.inr ⟨message, Option.some.inj (congrArg Prod.snd (hcycle.symm.trans hfailed))⟩
      · have houtcome := congrArg Prod.snd (hanswer.symm.trans hcycle)
        rcases answer_cases { session with source := rest, sink } line with
          ⟨hnone, -⟩ | ⟨fault, hfault, hcause⟩ | ⟨hok, -⟩
        · cases hnone.symm.trans houtcome
        · obtain rfl := Option.some.inj (hfault.symm.trans houtcome)
          rcases hcause with ⟨message, rfl⟩ | hbroken
          · exact Or.inr ⟨message, rfl⟩
          · obtain ⟨next, hnext⟩ := h.exists_outcome line
            cases hnext.symm.trans hbroken
        · exact Or.inl (Option.some.inj (hok.symm.trans houtcome)).symm
termination_by session.source.pending.length
decreasing_by exact pending_lt_of_cycle hcycle

end Session

namespace Table

/-- A statement fails just if it is an insertion into a full table, unless the sink does. -/
theorem Stores.error_execute_iff {table : Table} {rows : List Row} (h : table.Stores rows)
    {statement : Statement} (hfits : ∀ row, statement = .insert row → row.Fits) {σ : Type} [Sink σ]
    (metered : Metered σ none) {sink : σ} (hsink : metered.Covers sink) (fault : Fault) :
    ((statement.execute table).deliver sink).2 = .error fault ↔
      fault = .rejected .tableFull ∧ table.len = 1400 ∧ ∃ row, statement = .insert row := by
  cases statement with
  | select =>
      obtain ⟨last, hlast, -⟩ := h.deliver_select metered hsink
      rw [hlast]
      constructor
      · rintro ⟨⟩
      · rintro ⟨-, -, row, ⟨⟩⟩
  | insert row =>
      have houtcome : (((Statement.insert row).execute table).deliver sink).2 =
          (table.insert row).outcome := rfl
      have hfull : maxRows = 1400 := by decide
      rw [houtcome, h.len_eq, ← hfull]
      rcases Nat.lt_or_eq_of_le h.length_le with hroom | hlength
      · rw [(h.insert hroom (hfits row rfl)).1]
        constructor
        · rintro ⟨⟩
        · rintro ⟨-, hlength, -⟩
          exact absurd hlength (Nat.ne_of_lt hroom)
      · rw [h.insert_of_full hlength]
        constructor
        · rintro ⟨⟩
          exact ⟨rfl, hlength, row, rfl⟩
        · rintro ⟨rfl, -, -⟩
          rfl

/-- No line and no session on a table breaks a rule of the store, whatever its streams do. Every
place that is read or written lies on a page, and has the size of a row; every text that is copied
has room; and no cursor is asked for rows behind the end. So an accepted statement fails only if it
is an insertion into a full table, as long as the sink does not fail. -/
theorem Reachable.keeps_rules {table : Table} (h : table.Reachable) :
    (∀ line, ∃ next, (table.respond line).outcome = .ok next ∧
      ∀ {σ : Type} [Sink σ] (sink : σ),
        ((table.respond line).deliver sink).outcome = .ok next ∨
          ∃ message, ((table.respond line).deliver sink).outcome = .error (.stream message)) ∧
    (∀ {σ : Type} [Sink σ] (session : Session σ), session.table = table →
      (session.run.2 = .ok () ∨ ∃ message, session.run.2 = .error (.stream message)) ∧
      ∀ before line after, session.heard = before ++ line :: after →
        ∃ next, ((table.afterAll before).respond line).outcome = .ok next) ∧
    (∀ n, n < table.len ∨ n = table.len ∧ n < 1400 →
      n / 14 < 100 ∧ n % 14 * 291 + 291 ≤ 4096 ∧
      ∀ page : Page, ∃ slot, page.slot (n % 14) = .ok slot ∧
        Slot.ofBytes ((page.bytes.toList.drop (n % 14 * 291)).take 291) = .ok slot) ∧
    (∀ n, ∃ row, table.row? n = .ok row ∧ (row.isSome = true ↔ n < table.len)) ∧
    (∀ line row, Statement.parse line = .ok (.insert row) →
      row.username.utf8ByteSize ≤ 32 ∧ row.email.utf8ByteSize ≤ 255 ∧
        ∀ slot : Slot, (slot.store row).2 = .ok ()) ∧
    (∀ cursor, cursor = Cursor.start table ∨ cursor = Cursor.finish table →
      ∀ calls, ∃ answers last, cursor.uses calls = .ok (answers, last) ∧
        last.position ≤ table.len ∧ last.remaining = .ok (table.len - last.position)) ∧
    ∀ line statement, Statement.parse line = .ok statement →
      ∀ {σ : Type} [Sink σ] (metered : Metered σ none) (sink : σ), metered.Covers sink →
        ∀ fault, ((statement.execute table).deliver sink).2 = .error fault ↔
          fault = .rejected .tableFull ∧ table.len = 1400 ∧ ∃ row, statement = .insert row := by
  obtain ⟨rows, hstores⟩ := h.sound
  have hlen := hstores.len_eq
  have hlength : rows.length ≤ 1400 := hstores.length_le
  refine ⟨?_, ?_, ?_, ?_, ?_, ?_, ?_⟩
  · intro line
    obtain ⟨next, hnext⟩ := h.sound.exists_outcome line
    refine ⟨next, hnext, ?_⟩
    intro σ _ sink
    rw [← hnext]
    exact (table.respond line).outcome_deliver sink
  · rintro σ _ session rfl
    refine ⟨session.outcome_run h.sound, ?_⟩
    intro before line after _
    exact (h.sound.afterAll before).exists_outcome line
  · intro n hn
    exact Layout.place_inside (show n < 1400 by omega)
  · intro n
    refine ⟨_, hstores.row?_eq_getElem? n, ?_⟩
    simp [hlen]
  · intro line row hparse
    have hfits := Statement.fits_of_parse hparse
    refine ⟨hfits.1, hfits.2, ?_⟩
    intro slot
    rw [slot.store_of_fits hfits]
  · intro cursor hcursor calls
    have hposition : cursor.position ≤ rows.length ∧ cursor.table = table := by
      rcases hcursor with rfl | rfl
      · exact ⟨Nat.zero_le _, rfl⟩
      · exact ⟨Nat.le_of_eq hlen, rfl⟩
    obtain ⟨hle, rfl⟩ := hposition
    obtain ⟨last, hlast, huses⟩ := hstores.uses_eq hle calls
    rw [← hlen] at hlast
    exact ⟨_, _, huses, hlast, if_neg (Nat.not_lt.mpr hlast)⟩
  · intro line statement hparse σ _ metered sink hsink fault
    apply hstores.error_execute_iff _ metered hsink
    rintro row rfl
    exact Statement.fits_of_parse hparse

/-- A cursor behind the only row goes nowhere, and finds no rows left. -/
theorem keeps_rules_of_one_row :
    let table := (empty.respond (some "insert 1 ann a@b")).table
    (∃ next, (table.respond (some "select")).outcome = .ok next) ∧
      ∃ answers last, (Cursor.finish table).uses [.next, .advance, .remaining] =
          .ok (answers, last) ∧
        last.position ≤ table.len ∧ last.remaining = .ok (table.len - last.position) := by
  intro table
  have hreachable : table.Reachable := .step .empty (some "insert 1 ann a@b") ({} : Recorder)
  obtain ⟨hlines, -, -, -, -, hcursors, -⟩ := hreachable.keeps_rules
  obtain ⟨next, hnext, -⟩ := hlines (some "select")
  exact ⟨⟨next, hnext⟩, hcursors _ (Or.inr rfl) _⟩

end Table

end RowStore
