import RowStore.Proofs.Session.Cycle
import RowStore.Proofs.Session.Ledger
import RowStore.Proofs.Session.Script
import RowStore.Proofs.Stream.Metered

/-! # The transcript of a session

A session whose output does not fail comes to an explicit end: its table has
answered the lines of the script, its output is their transcript and one more
prompt, and its outcome and the rest of its input are those of the script. The
tables must be ones that sessions lead to, since those never break a rule of the
store.
-/

namespace RowStore

open Text

namespace Table

/-- A table that was filled by appending rows. -/
def Sound (table : Table) : Prop :=
  ∃ rows, table.Stores rows

/-- The table after some lines were answered. -/
def after (table : Table) (lines : List String) : Table :=
  lines.foldl (fun table line => (table.respond (some line)).table) table

/-- What a session shows for some lines: the answer to each, behind a prompt. -/
def transcript (table : Table) : List String → String
  | [] => ""
  | line :: lines =>
      let response := table.respond (some line)
      Session.prompt ++ String.join response.text ++ response.table.transcript lines

/-- What a session shows up to the prompt behind some lines. -/
def dialogue (table : Table) (lines : List String) : String :=
  table.transcript lines ++ Session.prompt

theorem dialogue_cons (table : Table) (line : String) (lines : List String) :
    table.dialogue (line :: lines) =
      Session.prompt ++ String.join (table.respond (some line)).text ++
        (table.respond (some line)).table.dialogue lines := by
  rw [dialogue, dialogue, transcript, String.append_assoc]

theorem after_cons (table : Table) (line : String) (lines : List String) :
    table.after (line :: lines) = (table.respond (some line)).table.after lines := rfl

theorem after_append (table : Table) (first second : List String) :
    table.after (first ++ second) = (table.after first).after second :=
  List.foldl_append

theorem transcript_append (table : Table) (first second : List String) :
    table.transcript (first ++ second) =
      table.transcript first ++ (table.after first).transcript second := by
  induction first generalizing table with
  | nil => exact String.empty_append.symm
  | cons line first ih =>
      rw [List.cons_append, transcript, transcript, ih]
      exact String.append_assoc.symm

theorem dialogue_append (table : Table) (first second : List String) :
    table.dialogue (first ++ second) =
      table.transcript first ++ (table.after first).dialogue second := by
  rw [dialogue, dialogue, transcript_append, String.append_assoc]

theorem Sound.respond {table : Table} (h : table.Sound) {line : String}
    (hline : line ≠ Response.exitCommand) :
    (table.respond (some line)).outcome = .ok .proceed ∧
      (table.respond (some line)).table.Sound := by
  obtain ⟨rows, hrows⟩ := h
  obtain ⟨more, houtcome, hstores, -⟩ := hrows.respond hline
  exact ⟨houtcome, _, hstores⟩

end Table

namespace Session

open Sink

variable {σ : Type} [Sink σ] {allowance : Option Allowance}

theorem ask_of_within (metered : Metered σ allowance) {sink : σ} (hsink : metered.Covers sink)
    (hwithin : Within allowance ((metered.written sink).length + prompt.utf8ByteSize)) :
    ∃ next, ask sink = (next, .ok ()) ∧
      metered.written next = metered.written sink ++ Utf8.encode prompt ∧
      metered.Covers next := by
  rw [← Utf8.length_encode] at hwithin
  obtain ⟨middle, hwrite, hmiddle, hcovers⟩ := metered.write_of_within hsink _ hwithin
  obtain ⟨next, hflush, hnext, hcovers⟩ := metered.flush_ok hcovers
  refine ⟨next, ?_, hnext.trans hmiddle, hcovers⟩
  rw [ask, hwrite]
  exact hflush

/-- The end of a session writes nothing more, and fails only if its flush does. -/
theorem answer_of_close (session : Session σ) {line : Option String}
    (hline : line = none ∨ line = some Response.exitCommand) {sink : σ}
    {result : Except String Unit} (hflush : flush session.sink = (sink, result)) :
    ∃ last, session.answer line = (last, some (result.mapError .stream)) ∧
      last.table = session.table ∧ last.source = session.source ∧ last.sink = sink := by
  obtain ⟨hwrite, houtcome, htable⟩ :
      writeAll session.sink (session.table.respond line).text = (session.sink, .ok ()) ∧
        (session.table.respond line).outcome = .ok .exit ∧
        (session.table.respond line).table = session.table := by
    rcases hline with rfl | rfl
    · exact ⟨rfl, rfl, rfl⟩
    · rw [session.table.respond_exitCommand]
      exact ⟨rfl, rfl, rfl⟩
  cases result with
  | error message => exact ⟨_, answer_of_flush_error hwrite houtcome hflush, htable, rfl, rfl⟩
  | ok _ => exact ⟨_, answer_of_exit hwrite houtcome hflush, htable, rfl, rfl⟩

/-- A session without another line stops behind its prompt. Either the reading has failed, or what
is left to do is a flush. -/
theorem cycle_of_close {session : Session σ} {sink : σ} (hask : ask session.sink = (sink, .ok ()))
    (hclose : session.source.script.lines = []) :
    (∃ last, session.cycle = (last, some session.source.script.outcome) ∧
      session.source.script.outcome ≠ .ok () ∧ last.table = session.table ∧
      last.source = session.source.script.rest ∧ last.sink = sink) ∨
    session.source.script.outcome = .ok () ∧ ∀ flushed result, flush sink = (flushed, result) →
      ∃ last, session.cycle = (last, some (result.mapError .stream)) ∧ last.table = session.table ∧
        last.source = session.source.script.rest ∧ last.sink = flushed := by
  match hread : session.source.readLine with
  | (.failed message, rest) =>
      rw [Source.script_of_failed hread]
      exact Or.inl ⟨_, cycle_of_failed hask hread, nofun, rfl, rfl, rfl⟩
  | (.ended, rest) =>
      rw [Source.script_of_ended hread, cycle_of_ended hask hread]
      refine Or.inr ⟨rfl, ?_⟩
      intro flushed result hflush
      exact answer_of_close { session with source := rest, sink } (Or.inl rfl) hflush
  | (.line text, rest) =>
      by_cases hexit : Blank.trim text = Response.exitCommand
      · rw [Source.script_of_exit hread hexit, cycle_of_line hask hread]
        refine Or.inr ⟨rfl, ?_⟩
        intro flushed result hflush
        exact answer_of_close { session with source := rest, sink }
          (Or.inr (congrArg some hexit)) hflush
      · rw [Source.script_of_line hread hexit] at hclose
        cases hclose

/-- A cycle whose prompt and answer are taken leads on to the next one. -/
theorem cycle_of_answer_within (metered : Metered σ allowance) {session : Session σ}
    (hsound : session.table.Sound) (hsink : metered.Covers session.sink) {text : String}
    {rest : Source} (hread : session.source.readLine = (.line text, rest))
    (hexit : Blank.trim text ≠ Response.exitCommand)
    (hwithin : Within allowance ((metered.written session.sink).length +
      (prompt ++ String.join (session.table.respond (some (Blank.trim text))).text).utf8ByteSize)) :
    ∃ next, session.cycle = (next, none) ∧
      next.table = (session.table.respond (some (Blank.trim text))).table ∧ next.source = rest ∧
      metered.written next.sink = metered.written session.sink ++
        Utf8.encode (prompt ++ String.join (session.table.respond (some (Blank.trim text))).text) ∧
      metered.Covers next.sink := by
  rw [String.utf8ByteSize_append] at hwithin
  obtain ⟨middle, hask, hmiddle, hcovers⟩ := ask_of_within metered hsink
    (hwithin.mono (Nat.add_le_add_left (Nat.le_add_right _ _) _))
  obtain ⟨sink, hwrite, hsinkWritten, hcovers⟩ :=
    metered.writeAll_of_within hcovers
      (session.table.respond (some (Blank.trim text))).text (by
        rw [hmiddle, List.length_append, Utf8.length_encode, Nat.add_assoc]
        exact hwithin)
  refine ⟨_, (cycle_of_line hask hread).trans (answer_of_proceed hwrite ?_), rfl, rfl, ?_, hcovers⟩
  · exact (hsound.respond hexit).1
  · rw [hsinkWritten, hmiddle, Utf8.encode_append, List.append_assoc]

/-- A session without another line ends behind its prompt. -/
theorem run_of_close (metered : Metered σ allowance) {session : Session σ}
    (hsink : metered.Covers session.sink)
    (hwithin : Within allowance ((metered.written session.sink).length + prompt.utf8ByteSize))
    (hclose : session.source.script.lines = []) :
    ∃ last, session.run = (last, session.source.script.outcome) ∧ last.table = session.table ∧
      last.source = session.source.script.rest ∧
      metered.written last.sink = metered.written session.sink ++ Utf8.encode prompt ∧
      metered.Covers last.sink := by
  obtain ⟨sink, hask, hwritten, hcovers⟩ := ask_of_within metered hsink hwithin
  rcases cycle_of_close hask hclose with
    ⟨last, hcycle, -, htable, hsource, rfl⟩ | ⟨houtcome, hcycle⟩
  · exact ⟨last, run_of_cycle_some hcycle, htable, hsource, hwritten, hcovers⟩
  · obtain ⟨flushed, hflush, hflushed, hcovers⟩ := metered.flush_ok hcovers
    obtain ⟨last, hcycle, htable, hsource, rfl⟩ := hcycle _ _ hflush
    rw [houtcome]
    exact ⟨last, run_of_cycle_some hcycle, htable, hsource, hflushed.trans hwritten, hcovers⟩

/-- A session whose output stays within what its sink takes. -/
theorem run_of_within (metered : Metered σ allowance) (session : Session σ)
    (hsound : session.table.Sound) (hsink : metered.Covers session.sink)
    (hwithin : Within allowance ((metered.written session.sink).length +
      (session.table.dialogue session.source.script.lines).utf8ByteSize)) :
    ∃ last, session.run = (last, session.source.script.outcome) ∧
      last.table = session.table.after session.source.script.lines ∧
      last.source = session.source.script.rest ∧
      metered.written last.sink = metered.written session.sink ++
        Utf8.encode (session.table.dialogue session.source.script.lines) ∧
      metered.Covers last.sink := by
  induction hsource : session.source using Source.lineInduction generalizing session with
  | close source hclose =>
      subst hsource
      rw [hclose] at hwithin ⊢
      exact run_of_close metered hsink hwithin hclose
  | line source text rest hread hexit ih =>
      subst hsource
      rw [Source.script_of_line hread hexit] at hwithin ⊢
      simp only [Table.dialogue_cons] at hwithin ⊢
      rw [String.utf8ByteSize_append] at hwithin
      -- The answer is within the allowance since all of the dialogue is.
      obtain ⟨next, hcycle, htable, rfl, hwritten, hcovers⟩ :=
        cycle_of_answer_within metered hsound hsink hread hexit
          (hwithin.mono (Nat.add_le_add_left (Nat.le_add_right _ _) _))
      have hnext : next.table.Sound := by
        rw [htable]
        exact (hsound.respond hexit).2
      have hrest : Within allowance ((metered.written next.sink).length +
          (next.table.dialogue next.source.script.lines).utf8ByteSize) := by
        rw [htable, hwritten, List.length_append, Utf8.length_encode, Nat.add_assoc]
        exact hwithin
      obtain ⟨last, hrun, hlast⟩ := ih next hnext hcovers hrest rfl
      rw [htable, hwritten, List.append_assoc, ← Utf8.encode_append] at hlast
      exact ⟨last, (run_of_cycle_none hcycle).trans hrun, hlast⟩

/-- A session whose sink takes everything. -/
theorem run_of_unlimited (metered : Metered σ none) (session : Session σ)
    (hsound : session.table.Sound) (hsink : metered.Covers session.sink) {lines : List String}
    (hlines : session.source.script.lines = lines) :
    session.run.2 = session.source.script.outcome ∧
      session.run.1.table = session.table.after lines ∧
      session.run.1.source = session.source.script.rest ∧
      metered.written session.run.1.sink = metered.written session.sink ++
        Utf8.encode (session.table.dialogue lines) := by
  subst hlines
  obtain ⟨last, hrun, htable, hsource, hwritten, -⟩ :=
    run_of_within metered session hsound hsink (within_none _)
  rw [hrun]
  exact ⟨rfl, htable, hsource, hwritten⟩

end Session

end RowStore
