import RowStore.Proofs.Session.Exchanges
import RowStore.Proofs.Stream.Readings

/-! # The end of a session

A session that goes on after a cycle has read a line, so it comes to its end
within as many cycles as the input has lines, and one more for the end of the
input. A loop over cycles that is given this number of them does not run out of
them, whatever the table holds and the sink does. Each cycle begins with one
prompt, so this is a bound on the prompts as well.
-/

namespace RowStore

open Text

namespace Session

variable {σ : Type} [Sink σ]

/-- Goes on for so many cycles at most. There is no result if more of them are needed. -/
def runFor : Nat → Session σ → Option (Session σ × Except Fault Unit)
  | 0, _ => none
  | cycles + 1, session =>
      match session.cycle with
      | (next, none) => next.runFor cycles
      | (last, some outcome) => some (last, outcome)

/-- The number of prompts that a session begins to show, one in each cycle. -/
def prompts (session : Session σ) : Nat :=
  match _hcycle : session.cycle with
  | (next, none) => next.prompts + 1
  | (_, some _) => 1
termination_by session.source.pending.length
decreasing_by exact pending_lt_of_cycle _hcycle

theorem prompts_of_cycle_none {session next : Session σ} (h : session.cycle = (next, none)) :
    session.prompts = next.prompts + 1 := by
  rw [prompts]
  split
  next hcycle => rw [h] at hcycle; cases hcycle; rfl
  next hcycle => rw [h] at hcycle; cases hcycle

theorem prompts_of_cycle_some {session last : Session σ} {outcome : Except Fault Unit}
    (h : session.cycle = (last, some outcome)) : session.prompts = 1 := by
  rw [prompts]
  split
  next hcycle => rw [h] at hcycle; cases hcycle
  next hcycle => rfl

/-- So many cycles are enough just if there are no more prompts. -/
theorem runFor_eq (session : Session σ) (cycles : Nat) :
    session.runFor cycles = if session.prompts ≤ cycles then some session.run else none := by
  induction cycles generalizing session with
  | zero =>
      refine (if_neg ?_).symm
      rcases hcycle : session.cycle with ⟨next, - | outcome⟩
      · simp [prompts_of_cycle_none hcycle]
      · simp [prompts_of_cycle_some hcycle]
  | succ cycles ih =>
      rcases hcycle : session.cycle with ⟨next, - | outcome⟩
      · rw [runFor, hcycle, prompts_of_cycle_none hcycle, run_of_cycle_none hcycle]
        simp only [ih next, Nat.add_le_add_iff_right]
      · rw [runFor, hcycle, prompts_of_cycle_some hcycle, run_of_cycle_some hcycle,
          if_pos (Nat.le_add_left _ _)]

/-! ## Cycles and lines -/

/-- A cycle that leads on has read a line. -/
theorem readLine_of_cycle_none {session next : Session σ} (h : session.cycle = (next, none)) :
    ∃ text, session.source.readLine = (.line text, next.source) := by
  rcases hask : ask session.sink with ⟨sink, message | ⟨⟩⟩
  · cases (cycle_of_ask_error hask).symm.trans h
  · rcases hread : session.source.readLine with ⟨text | - | message, rest⟩
    · refine ⟨text, ?_⟩
      rw [← congrArg (·.1.source) h, cycle_of_line hask hread, source_answer]
    · have hsome := answer_none_isSome { session with source := rest, sink }
      rw [← cycle_of_ended hask hread, h] at hsome
      cases hsome
    · cases (cycle_of_failed hask hread).symm.trans h

/-- What is left for the next cycle is the input without its first line. -/
theorem pending_of_cycle_none {session next : Session σ} (h : session.cycle = (next, none)) :
    next.source.pending = Source.dropLines 1 session.source.pending ∧
      next.source.ending = session.source.ending := by
  obtain ⟨text, hread⟩ := readLine_of_cycle_none h
  exact Source.pending_of_line hread

theorem prompts_of_pending_eq_nil {session : Session σ} (hpending : session.source.pending = [])
    (hending : session.source.ending = .complete) : session.prompts = 1 := by
  rcases hcycle : session.cycle with ⟨next, - | outcome⟩
  · obtain ⟨text, hread⟩ := readLine_of_cycle_none hcycle
    obtain ⟨rest, hended, -, -⟩ := Source.readLine_of_nil hpending hending
    cases hread.symm.trans hended
  · exact prompts_of_cycle_some hcycle

/-- There is a prompt for each line at most, and one for the end of the input. -/
theorem prompts_le (session : Session σ) (hending : session.source.ending = .complete) :
    session.prompts ≤ (pieces Source.newline session.source.pending).length + 1 := by
  induction hpending : session.source.pending using pieceInduction Source.newline
    generalizing session with
  | nil => exact Nat.le_of_eq (prompts_of_pending_eq_nil hpending hending)
  | tail last hlast hne =>
      rw [pieces_of_not_mem hlast hne]
      rcases hcycle : session.cycle with ⟨next, - | outcome⟩
      · obtain ⟨hnext, hclose⟩ := pending_of_cycle_none hcycle
        rw [hpending, Source.dropLines, Source.dropWhile_of_not_mem hlast] at hnext
        rw [prompts_of_cycle_none hcycle,
          prompts_of_pending_eq_nil hnext (hclose.trans hending)]
        exact Nat.le_refl _
      · rw [prompts_of_cycle_some hcycle]
        exact Nat.le_add_left _ _
  | piece first rest hfirst ih =>
      rw [pieces_append_cons hfirst, List.length_cons]
      rcases hcycle : session.cycle with ⟨next, - | outcome⟩
      · obtain ⟨hnext, hclose⟩ := pending_of_cycle_none hcycle
        rw [hpending, Source.dropLines, Source.dropWhile_append_newline rest hfirst] at hnext
        rw [prompts_of_cycle_none hcycle]
        exact Nat.succ_le_succ (ih next (hclose.trans hending) hnext)
      · rw [prompts_of_cycle_some hcycle]
        exact Nat.le_add_left _ _

theorem prompts_le_count (session : Session σ) (hending : session.source.ending = .complete) :
    session.prompts ≤ session.source.pending.count Source.newline + 2 :=
  Nat.le_trans (session.prompts_le hending) (Nat.succ_le_succ (length_pieces_le _))

/-- If the output never fails, there is one prompt for each line that is answered, and one more. -/
theorem prompts_of_unlimited (metered : Sink.Metered σ none) (session : Session σ)
    (hsound : session.table.Sound) (hsink : metered.Covers session.sink) :
    session.prompts = session.source.script.lines.length + 1 := by
  induction hsource : session.source using Source.lineInduction generalizing session with
  | close source hclose =>
      subst hsource
      obtain ⟨sink, hask, -, -⟩ := ask_of_within metered hsink (Sink.within_none _)
      rw [hclose]
      rcases cycle_of_close hask hclose with ⟨last, hcycle, -⟩ | ⟨-, hcycle⟩
      · exact prompts_of_cycle_some hcycle
      · obtain ⟨last, hcycle, -⟩ := hcycle _ _ rfl
        exact prompts_of_cycle_some hcycle
  | line source text rest hread hexit ih =>
      subst hsource
      obtain ⟨next, hcycle, htable, rfl, -, hcovers⟩ :=
        cycle_of_answer_within metered hsound hsink hread hexit (Sink.within_none _)
      have hnext : next.table.Sound := htable ▸ (hsound.respond hexit).2
      rw [prompts_of_cycle_none hcycle, ih next hnext hcovers rfl, Source.script_of_line hread hexit]
      rfl

/-- A session reads its input piece by piece and ends, if the reading does not fail. The pieces make
up the input in order. Each of them ends with its only newline, but for the last one; it is empty just
if no bytes are left, and then the reading says so. Other chunks give the same pieces and readings.
The loop over cycles ends with the second prompt more than there are newlines at the latest. -/
theorem reads_pieces_and_ends (session : Session σ)
    (hending : session.source.ending = .complete) :
    let source := session.source
    let limit := source.pending.count Source.newline + 2
    (∀ count, ((source.draws count).map Source.Draw.piece).flatten ++
        (source.behind count).pending = source.pending) ∧
    (∀ count, (source.behind count).ReadsPiece) ∧
    (∀ other : Source, other.Alike source → ∀ count, other.draws count = source.draws count) ∧
    session.runFor limit = some session.run ∧ session.prompts ≤ limit ∧
    (∀ metered : Sink.Metered σ none, session.table.Attainable → metered.Covers session.sink →
      ∃ exchanges : List Exchange, exchanges.length + 1 = session.prompts ∧
        metered.written session.run.1.sink =
          metered.written session.sink ++ Utf8.encode (Exchange.shown exchanges)) := by
  intro source limit
  have hle : session.prompts ≤ limit := session.prompts_le_count hending
  refine ⟨source.flatten_draws_append, ?_, fun other hother => hother.draws, ?_, hle, ?_⟩
  · intro count
    exact Source.readsPiece ((source.ending_behind count).trans hending)
  · rw [runFor_eq, if_pos hle]
  · intro metered htable hsink
    obtain ⟨-, -, -, hwritten⟩ := run_of_unlimited metered session htable.sound hsink rfl
    refine ⟨session.table.exchanges session.source.script.lines, ?_, ?_⟩
    · rw [prompts_of_unlimited metered session htable.sound hsink,
        ← List.length_map Exchange.line, Table.map_line_exchanges]
    · rw [hwritten, Table.shown_exchanges]

/-- A chunk ends within a character, and a line is blank. -/
theorem reads_pieces_and_ends_of_blank_line :
    let source : Source := { chunks := [[10, 0xC3], [0xA9, 10, 46]] }
    let session : Session Recorder := { table := .empty, source, sink := {} }
    (source.draws 4).map Source.Draw.piece = [[10], [0xC3, 0xA9, 10], [46], []] ∧
      session.runFor 4 = some session.run := by
  intro source session
  obtain ⟨-, -, hdraws, hrun, -, -⟩ := session.reads_pieces_and_ends rfl
  refine ⟨?_, hrun⟩
  have hother : Source.Alike { chunks := [[10, 0xC3, 0xA9, 10, 46]] } source := ⟨rfl, rfl⟩
  rw [← hdraws _ hother]
  decide +kernel

end Session

end RowStore
