import RowStore.Proofs.Session.Refinement

/-! # Lines and their answers

A session on valid text is a sequence of exchanges: each line that it answers,
and what it shows for the line. Its output is no more than that, with a prompt
in front of each answer and one behind the last. So what one session shows can
be compared with another one line by line, although the prompts and answers of
the two lie at different places.
-/

namespace RowStore

open Text

/-- A line, without blanks at its ends, and what is shown for it. -/
structure Exchange where
  line : String
  answer : String

/-- The output that some exchanges make up. -/
def Exchange.shown (exchanges : List Exchange) : String :=
  String.join (exchanges.map fun exchange => Session.prompt ++ exchange.answer) ++ Session.prompt

namespace Table

/-- The exchanges that some lines lead to. -/
def exchanges (table : Table) : List String → List Exchange
  | [] => []
  | line :: lines =>
      let response := table.respond (some line)
      { line, answer := String.join response.text } :: response.table.exchanges lines

theorem map_line_exchanges (table : Table) (lines : List String) :
    (table.exchanges lines).map Exchange.line = lines := by
  induction lines generalizing table with
  | nil => rfl
  | cons line lines ih => exact congrArg (line :: ·) (ih _)

theorem shown_exchanges (table : Table) (lines : List String) :
    Exchange.shown (table.exchanges lines) = table.dialogue lines := by
  induction lines generalizing table with
  | nil => rfl
  | cons line lines ih =>
      rw [dialogue_cons, ← ih, exchanges, Exchange.shown, Exchange.shown, List.map_cons,
        String.join_cons, String.append_assoc]

theorem Stores.shown_exchanges_of_ledger {table : Table} {rows : List Row} (h : table.Stores rows)
    {lines : List String} {rows' : List Row} {text : String}
    (hrun : Ledger.run (rows.map Row.stored) lines = (rows', text)) :
    Exchange.shown (table.exchanges (Ledger.answered lines)) = text := by
  obtain ⟨more, -, hledger⟩ := h.run_ledger lines
  rw [shown_exchanges]
  exact congrArg Prod.snd (hledger.symm.trans hrun)

end Table

/-! ## What is answered -/

/-- What is answered last when the reading comes to an end: nothing, if it fails. -/
def Close.heard : Close → List (Option String)
  | .exit => [some Response.exitCommand]
  | .ended => [none]
  | .failed _ => []

/-- Everything that is answered if the output never fails. -/
def Script.heard (script : Script) : List (Option String) :=
  script.lines.map some ++ script.close.heard

/-- Everything that is answered of some lines, the end of input included. -/
def Ledger.heard : List String → List (Option String)
  | [] => [none]
  | line :: lines =>
      if Blank.trim line = Response.exitCommand then [some Response.exitCommand]
      else some (Blank.trim line) :: heard lines

theorem Source.heard_heed_map_some (lines : List String) :
    (heed (lines.map fun line => some (Blank.trim line))).1.map some ++
        (heed (lines.map fun line => some (Blank.trim line))).2.heard = Ledger.heard lines := by
  induction lines with
  | nil => rfl
  | cons line lines ih =>
      rw [List.map_cons, heed, Ledger.heard]
      split
      · rfl
      · rw [← ih]
        rfl

namespace Session

open Sink

variable {σ : Type} [Sink σ]

/-- A session whose prompt is taken answers no more than the close of a script without lines. -/
theorem heard_of_close {session : Session σ} {sink : σ}
    (hask : ask session.sink = (sink, .ok ())) (hclose : session.source.script.lines = []) :
    session.heard = session.source.script.close.heard := by
  have hhanded : session.handed.toList = session.source.script.close.heard := by
    rw [handed, hask]
    rcases hread : session.source.readLine with ⟨text | - | message, rest⟩
    · by_cases hexit : Blank.trim text = Response.exitCommand
      · rw [Source.script_of_exit hread hexit]
        exact congrArg (fun line => [some line]) hexit
      · rw [Source.script_of_line hread hexit] at hclose
        cases hclose
    · rw [Source.script_of_ended hread]
      rfl
    · rw [Source.script_of_failed hread]
      rfl
  rcases cycle_of_close hask hclose with ⟨last, hcycle, -⟩ | ⟨-, hcycle⟩
  · exact (heard_of_cycle_some hcycle).trans hhanded
  · obtain ⟨last, hcycle, -⟩ := hcycle _ _ rfl
    exact (heard_of_cycle_some hcycle).trans hhanded

/-- Whatever its sink does, a session answers the first ones of the lines that it can read. -/
theorem heard_isPrefix (session : Session σ) : session.heard <+: session.source.script.heard := by
  induction hsource : session.source using Source.lineInduction generalizing session with
  | close source hclose =>
      subst hsource
      rcases hask : ask session.sink with ⟨sink, message | ⟨⟩⟩
      · rw [heard_of_cycle_some (cycle_of_ask_error hask), handed, hask]
        exact List.nil_prefix
      · rw [heard_of_close hask hclose, Script.heard, hclose]
        exact List.prefix_refl _
  | line source text rest hread hexit ih =>
      subst hsource
      rw [Script.heard, Source.script_of_line hread hexit, List.map_cons, List.cons_append]
      rcases hask : ask session.sink with ⟨sink, message | ⟨⟩⟩
      · rw [heard_of_cycle_some (cycle_of_ask_error hask), handed, hask]
        exact List.nil_prefix
      · have hhanded : session.handed.toList = [some (Blank.trim text)] := by
          rw [handed, hask, hread]
          rfl
        rcases hcycle : session.cycle with ⟨next, - | outcome⟩
        · have hnext : next.source = rest := by
            rw [← congrArg (·.1.source) hcycle, cycle_of_line hask hread, source_answer]
          rw [heard_of_cycle_none hcycle, hhanded, List.singleton_append, List.prefix_cons_inj]
          exact ih next hnext
        · rw [heard_of_cycle_some hcycle, hhanded, List.prefix_cons_inj]
          exact List.nil_prefix

theorem handed_of_cycle_none {session next : Session σ} (h : session.cycle = (next, none)) :
    ∃ text, session.handed = some (some text) ∧ text ≠ Response.exitCommand := by
  rcases session.cycle_cases with ⟨rest, sink, message, -, hcycle⟩ |
    ⟨rest, sink, line, hhanded, hcycle⟩
  · cases hcycle.symm.trans h
  · have hanswer := congrArg Prod.snd (hcycle.symm.trans h)
    rcases answer_cases { session with source := rest, sink } line with
      ⟨-, hproceed⟩ | ⟨fault, hfault, -⟩ | ⟨hok, -⟩
    · cases line with
      | none => cases hproceed
      | some text =>
          refine ⟨text, hhanded, ?_⟩
          intro hexit
          cases hproceed.symm.trans (Table.outcome_respond_eq_exit_iff.mpr hexit)
    · cases hfault.symm.trans hanswer
    · cases hok.symm.trans hanswer

theorem handed_of_cycle_ok {session last : Session σ}
    (h : session.cycle = (last, some (.ok ()))) :
    session.handed = some (some Response.exitCommand) ∨ session.handed = some none := by
  rcases session.cycle_cases with ⟨rest, sink, message, -, hcycle⟩ |
    ⟨rest, sink, line, hhanded, hcycle⟩
  · cases hcycle.symm.trans h
  · have hanswer := congrArg Prod.snd (hcycle.symm.trans h)
    rcases answer_cases { session with source := rest, sink } line with
      ⟨hnone, -⟩ | ⟨fault, hfault, -⟩ | ⟨-, hexit⟩
    · cases hnone.symm.trans hanswer
    · cases hfault.symm.trans hanswer
    · cases line with
      | none => exact Or.inr hhanded
      | some text =>
          rw [Table.outcome_respond_eq_exit_iff.mp hexit] at hhanded
          exact Or.inl hhanded

/-- A session answers lines, of which only the last one can be the exit command. Without it, and
without the end of input, it has failed. -/
theorem exists_heard_eq (session : Session σ) :
    ∃ (lines : List String) (closing : List (Option String)),
      session.heard = lines.map some ++ closing ∧ Response.exitCommand ∉ lines ∧
      (closing = [] ∧ session.run.2 ≠ .ok () ∨ closing = [some Response.exitCommand] ∨
        closing = [none]) := by
  match hcycle : session.cycle with
  | (next, none) =>
      obtain ⟨text, hhanded, hexit⟩ := handed_of_cycle_none hcycle
      obtain ⟨lines, closing, hheard, hlines, hclosing⟩ := exists_heard_eq next
      rw [heard_of_cycle_none hcycle, run_of_cycle_none hcycle, hheard, hhanded]
      exact ⟨text :: lines, closing, rfl, List.not_mem_cons_of_ne_of_not_mem hexit.symm hlines,
        hclosing⟩
  | (last, some outcome) =>
      rw [heard_of_cycle_some hcycle, run_of_cycle_some hcycle]
      match hhanded : session.handed with
      | some none => exact ⟨[], [none], rfl, List.not_mem_nil, Or.inr (Or.inr rfl)⟩
      | none =>
          refine ⟨[], [], rfl, List.not_mem_nil, Or.inl ⟨rfl, ?_⟩⟩
          rintro rfl
          rcases handed_of_cycle_ok hcycle with hsome | hsome
          · cases hhanded.symm.trans hsome
          · cases hhanded.symm.trans hsome
      | some (some text) =>
          by_cases hexit : text = Response.exitCommand
          · rw [hexit]
            exact ⟨[], [_], rfl, List.not_mem_nil, Or.inr (Or.inl rfl)⟩
          · refine ⟨[text], [], rfl, ?_, Or.inl ⟨rfl, ?_⟩⟩
            · exact List.not_mem_cons_of_ne_of_not_mem (Ne.symm hexit) List.not_mem_nil
            · rintro rfl
              rcases handed_of_cycle_ok hcycle with hsome | hsome
              · exact hexit (Option.some.inj (Option.some.inj (hhanded.symm.trans hsome)))
              · cases hhanded.symm.trans hsome
termination_by session.source.pending.length
decreasing_by exact pending_lt_of_cycle hcycle

/-- A session whose output never fails answers everything that its script holds. -/
theorem heard_of_unlimited (metered : Metered σ none) (session : Session σ)
    (hsound : session.table.Sound) (hsink : metered.Covers session.sink) :
    session.heard = session.source.script.heard := by
  induction hsource : session.source using Source.lineInduction generalizing session with
  | close source hclose =>
      subst hsource
      obtain ⟨sink, hask, -, -⟩ := ask_of_within metered hsink (within_none _)
      rw [heard_of_close hask hclose, Script.heard, hclose]
      rfl
  | line source text rest hread hexit ih =>
      subst hsource
      obtain ⟨next, hcycle, htable, rfl, -, hcovers⟩ :=
        cycle_of_answer_within metered hsound hsink hread hexit (within_none _)
      obtain ⟨sink, hask, -, -⟩ := ask_of_within metered hsink (within_none _)
      have hnext : next.table.Sound := htable ▸ (hsound.respond hexit).2
      rw [heard_of_cycle_none hcycle, ih next hnext hcovers rfl, handed, hask, hread,
        Source.script_of_line hread hexit]
      rfl

/-- A session on valid text answers the lines of the text, and comes to the end of the exchanges
with them. -/
theorem run_of_text (metered : Metered σ none) (session : Session σ) {input : String}
    (hsound : session.table.Sound) (hsink : metered.Covers session.sink)
    (hinput : session.source.Shows (Utf8.encode input) none) :
    session.heard = Ledger.heard (Ledger.lines input) ∧ session.run.2 = .ok () ∧
      session.run.1.table = session.table.after (Ledger.answered (Ledger.lines input)) ∧
      metered.written session.run.1.sink = metered.written session.sink ++ Utf8.encode
        (Exchange.shown (session.table.exchanges (Ledger.answered (Ledger.lines input)))) := by
  obtain ⟨hlines, hscript⟩ := Source.script_of_encode hinput
  obtain ⟨houtcome, htable, -, hwritten⟩ := run_of_unlimited metered session hsound hsink hlines
  refine ⟨?_, houtcome.trans hscript, htable, ?_⟩
  · obtain ⟨hlines, hclose⟩ := hinput.script_eq
    rw [heard_of_unlimited metered session hsound hsink, Script.heard, hlines, hclose,
      Source.texts_encode, Source.heard_heed_map_some]
  · rw [Table.shown_exchanges]
    exact hwritten

end Session

end RowStore
