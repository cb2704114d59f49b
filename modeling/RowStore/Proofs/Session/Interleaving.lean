import RowStore.Proofs.Session.Safety

/-! # Answers that are shown while they arise

A response is known in full before any of it is shown. A program that has less
room works hand in hand with its sink: it shows each row of a listing before it
reads the next one, and says how a statement went when it has been executed. A
sink that fails then stops the work in the middle. Main statement: nothing but
the output can tell the two ways apart. The table is changed and the events are
reported before the first byte that answers to them is shown, and what a sink
fails with is never mistaken for a reason to turn a line down.
-/

namespace RowStore

open Text Sink

variable {σ : Type}

/-! ## Working hand in hand -/

/-- Work on a table, as far as it has come, and the sink that it is shown on. -/
structure Progress (σ : Type) where
  table : Table
  events : List Event
  sink : σ
  outcome : Except Fault Unit

/-- Goes on, unless the sink has failed. -/
def Sink.andThen (shown : σ × Except Fault Unit) (more : σ → σ × Except Fault Unit) :
    σ × Except Fault Unit :=
  match shown with
  | (sink, .error fault) => (sink, .error fault)
  | (sink, .ok ()) => more sink

theorem Sink.andThen_assoc (shown : σ × Except Fault Unit)
    (first second : σ → σ × Except Fault Unit) :
    andThen (andThen shown first) second = andThen shown fun sink => andThen (first sink) second := by
  rcases shown with ⟨sink, fault | ⟨⟩⟩
  · rfl
  · rfl

variable [Sink σ]

/-- Shows a line. A failure of the sink is a fault like any other. -/
def Sink.tell (sink : σ) (text : String) : σ × Except Fault Unit :=
  match write sink (Utf8.encode text) with
  | (sink, .error message) => (sink, .error (.stream message))
  | (sink, .ok ()) => (sink, .ok ())

/-- Shows the rows from the position on. None is read before the one in front of it is shown. -/
def Cursor.list (cursor : Cursor) (sink : σ) : σ × Except Fault Unit :=
  match _hnext : cursor.next with
  | .error breach => (sink, .error (.breached breach))
  | .ok (none, _) => (sink, .ok ())
  | .ok (some row, rest) => andThen (tell sink (row.display ++ "\n")) fun sink => rest.list sink
termination_by cursor.table.len - cursor.position
decreasing_by
  obtain ⟨hlt, rfl⟩ := next_eq_some _hnext
  simp only
  omega

/-- Executes a statement, and shows a listing while it reads the rows. -/
def Statement.perform (table : Table) (sink : σ) : Statement → Progress σ
  | select =>
      let listing := (Cursor.start table).list sink
      { table, events := [], sink := listing.1, outcome := listing.2 }
  | insert row =>
      let insertion := table.insert row
      { table := insertion.table, events := insertion.events, sink, outcome := insertion.outcome }

/-- Does what a line asks for, unless it is turned down. -/
def Table.attempt (table : Table) (line : String) (sink : σ) : Progress σ :=
  if Response.isCommand line then
    { table, events := [], sink, outcome := .error (.rejected (.unknownCommand line)) }
  else
    match Statement.parse line with
    | .error reason => { table, events := [], sink, outcome := .error (.rejected reason) }
    | .ok statement =>
        let progress := statement.perform table sink
        { progress with events := .prepared statement :: progress.events }

/-- Says how the work on a line went. A fault that a session does not survive is passed on. -/
def Progress.conclude (progress : Progress σ) (line : String) : Turn σ :=
  let { table, events, sink, outcome } := progress
  match outcome with
  | .ok () =>
      let told := tell sink Response.executed
      { table, events, sink := told.1, outcome := told.2.map fun _ => .proceed }
  | .error fault =>
      if h : fault.isRecoverable = true then
        let told := tell sink (fault.message ++ "\n")
        { table
          events := events ++ [.lineRejected line (fault.reason h)]
          sink := told.1
          outcome := told.2.map fun _ => .proceed }
      else { table, events, sink, outcome := .error fault }

/-- Answers a line, or the end of input if there is none, and shows the answer while it arises. -/
def Table.step (table : Table) (line : String) (hasLine : Bool) (sink : σ) : Turn σ :=
  if hasLine then
    if line = Response.exitCommand then
      { table, events := [.exitRequested table.len], sink, outcome := .ok .exit }
    else (table.attempt line sink).conclude line
  else { table, events := [.inputEnded], sink, outcome := .ok .exit }

/-! ## Line after line -/

namespace Cursor

theorem list_of_next_none {cursor rest : Cursor} (h : cursor.next = .ok (none, rest)) (sink : σ) :
    cursor.list sink = (sink, .ok ()) := by
  rw [list]
  split
  next hnext => rw [h] at hnext; cases hnext
  next => rfl
  next hnext => rw [h] at hnext; cases hnext

theorem list_of_next_some {cursor rest : Cursor} {row : Row}
    (h : cursor.next = .ok (some row, rest)) (sink : σ) :
    cursor.list sink = andThen (tell sink (row.display ++ "\n")) rest.list := by
  rw [list]
  split
  next hnext => rw [h] at hnext; cases hnext
  next hnext => rw [h] at hnext; cases hnext
  next hnext => rw [h] at hnext; cases hnext; rfl

end Cursor

namespace Sink

/-- Shows lines one after the other, up to the first failure. -/
def tellAll (texts : List String) (sink : σ) : σ × Except Fault Unit :=
  match texts with
  | [] => (sink, .ok ())
  | text :: texts => andThen (tell sink text) (tellAll texts)

theorem tellAll_eq (texts : List String) (sink : σ) :
    tellAll texts sink = ((writeAll sink texts).1, (writeAll sink texts).2.mapError .stream) := by
  induction texts generalizing sink with
  | nil => rfl
  | cons text texts ih =>
      rw [tellAll, tell, writeAll]
      rcases write sink (Utf8.encode text) with ⟨next, message | ⟨⟩⟩
      · rfl
      · exact ih next

/-- A sink fails with a fault of its own, which is no reason to turn a line down. -/
theorem tellAll_cases (texts : List String) (sink : σ) :
    (∃ next, tellAll texts sink = (next, .ok ())) ∨
      ∃ next message, tellAll texts sink = (next, .error (.stream message)) := by
  rw [tellAll_eq]
  rcases writeAll sink texts with ⟨next, message | ⟨⟩⟩
  · exact Or.inr ⟨next, message, rfl⟩
  · exact Or.inl ⟨next, rfl⟩

theorem tellAll_append (first second : List String) (sink : σ) :
    tellAll (first ++ second) sink = andThen (tellAll first sink) (tellAll second) := by
  induction first generalizing sink with
  | nil => rfl
  | cons text first ih =>
      rw [List.cons_append, tellAll, tellAll, andThen_assoc]
      exact congrArg (andThen _) (funext ih)

theorem tellAll_singleton (text : String) (sink : σ) : tellAll [text] sink = tell sink text := by
  rw [tellAll]
  rcases tell sink text with ⟨next, fault | ⟨⟩⟩
  · rfl
  · rfl

end Sink

/-- A response is delivered by showing its lines. -/
theorem Response.deliver_of_proceed {response : Response} (h : response.outcome = .ok .proceed)
    (sink : σ) :
    response.deliver sink =
      { table := response.table
        events := response.events
        sink := (tellAll response.text sink).1
        outcome := (tellAll response.text sink).2.map fun _ => .proceed } := by
  rw [deliver, h, tellAll_eq]
  rcases writeAll sink response.text with ⟨next, message | ⟨⟩⟩
  · rfl
  · rfl

theorem Response.outcome_deliver_of_unlimited (response : Response) (metered : Metered σ none)
    {sink : σ} (hsink : metered.Covers sink) :
    (response.deliver sink).outcome = response.outcome := by
  obtain ⟨last, hwrite, -⟩ := metered.writeAll_of_within hsink response.text (within_none _)
  rw [deliver, hwrite]

namespace Progress

/-- Work that is not turned down, and that has shown some lines, ends as the response with these
lines, one more behind them. -/
theorem conclude_of_tellAll (table : Table) (events : List Event) (texts : List String) (sink : σ)
    (line : String) :
    conclude
        { table, events, sink := (tellAll texts sink).1, outcome := (tellAll texts sink).2 } line =
      Response.deliver
        { table, events, text := texts ++ [Response.executed], outcome := .ok .proceed } sink := by
  rw [Response.deliver_of_proceed rfl, tellAll_append]
  rcases tellAll_cases texts sink with ⟨next, hok⟩ | ⟨next, message, hfailed⟩
  · rw [hok, andThen, tellAll_singleton]
    rfl
  · rw [hfailed]
    rfl

/-- Work that is turned down ends as the response that says so. -/
theorem conclude_of_rejected (table : Table) (events : List Event) (sink : σ) (line : String)
    (reason : Rejection) :
    conclude { table, events, sink, outcome := .error (.rejected reason) } line =
      (Response.reject table events line reason).deliver sink := by
  rw [Response.deliver_of_proceed rfl, Response.reject, tellAll_singleton]
  rfl

end Progress

namespace Table

variable {table : Table} {rows : List Row}

/-- A listing is made up of the rows that are stored. -/
theorem Stores.list_eq (h : table.Stores rows) {n : Nat} (hn : n ≤ rows.length) (sink : σ) :
    Cursor.list { table, position := n } sink =
      tellAll ((rows.drop n).map fun row => row.stored.display ++ "\n") sink := by
  -- The induction is on the number of rows that are still to be shown.
  induction hleft : rows.length - n generalizing n sink with
  | zero =>
      have hend : rows.length ≤ n := by omega
      have hnext := h.next_eq hn
      rw [List.getElem?_eq_none (by rwa [List.length_map])] at hnext
      rw [Cursor.list_of_next_none hnext, List.drop_of_length_le hend]
      rfl
  | succ left ih =>
      have hlt : n < rows.length := by omega
      have hnext := h.next_eq hn
      rw [List.getElem?_map, List.getElem?_eq_getElem hlt, Nat.min_eq_left hlt] at hnext
      rw [Cursor.list_of_next_some hnext, List.drop_eq_getElem_cons hlt, List.map_cons, tellAll]
      exact congrArg (andThen _) (funext fun next => ih hlt next (by omega))

/-- A statement that is executed in front of the sink ends as its response does when it is
delivered. -/
theorem Stores.conclude_perform (h : table.Stores rows) (line : String) (statement : Statement)
    (hfits : ∀ row, statement = .insert row → row.Fits) (sink : σ) :
    let progress := statement.perform table sink
    Progress.conclude { progress with events := .prepared statement :: progress.events } line =
      (Response.ofStatement table line statement).deliver sink := by
  cases statement with
  | select =>
      have hlist := h.list_eq (Nat.zero_le _) sink
      rw [List.drop_zero] at hlist
      rw [h.ofStatement_select, ← Progress.conclude_of_tellAll, ← hlist]
      rfl
  | insert row =>
      rcases Nat.lt_or_eq_of_le h.length_le with hroom | hfull
      · have hfits := hfits row rfl
        have hshown := Progress.conclude_of_tellAll (table.insert row).table
          (.prepared (.insert row) :: (table.insert row).events) [] sink line
        simp only [Statement.perform, (h.insert hroom hfits).1]
        rw [h.ofStatement_insert hroom line hfits]
        exact hshown
      · simp only [Statement.perform, h.insert_of_full hfull]
        rw [h.ofStatement_insert_of_full hfull]
        exact Progress.conclude_of_rejected _ _ _ _ _

/-- Showing an answer while it arises, and delivering the response when it is known, are the same. -/
theorem Stores.step_eq (h : table.Stores rows) (line : String) (hasLine : Bool) (sink : σ) :
    table.step line hasLine sink =
      (table.respond (if hasLine then some line else none)).deliver sink := by
  cases hasLine with
  | false => rfl
  | true =>
      rw [if_pos rfl, step, if_pos rfl]
      induction line using Response.lineCases with
      | exit =>
          rw [respond_exitCommand]
          rfl
      | command line hline hcommand =>
          rw [respond_of_isCommand hline hcommand, if_neg hline, attempt, if_pos hcommand]
          exact Progress.conclude_of_rejected _ _ _ _ _
      | rejected line reason hline hcommand hparse =>
          rw [respond_of_error hline hcommand hparse, if_neg hline, attempt, if_neg hcommand, hparse]
          exact Progress.conclude_of_rejected _ _ _ _ _
      | parsed line statement hline hcommand hparse =>
          rw [respond_of_ok hline hcommand hparse, if_neg hline, attempt, if_neg hcommand, hparse]
          apply h.conclude_perform
          rintro row rfl
          exact Statement.fits_of_parse hparse

/-- No sink has a say in what a line does. If the answer is shown while it arises, the table is
changed and the events are reported as if it were delivered afterwards, and they are the same on any
two sinks. The line leads where it leads on a sink that takes everything, or the sink fails. On a
sink that takes everything no line fails: a reason to turn it down is shown and not passed on. -/
theorem Reachable.step_ignores_sink {table : Table} (h : table.Reachable) (line : String)
    (hasLine : Bool) {σ τ : Type} [Sink σ] [Sink τ] (sink : σ) (other : τ) :
    let turn := table.step line hasLine sink
    let otherTurn := table.step line hasLine other
    turn = (table.respond (if hasLine then some line else none)).deliver sink ∧
    turn.table = otherTurn.table ∧ turn.events = otherTurn.events ∧
    ∃ next, (next = .exit ↔ hasLine = false ∨ line = ".exit") ∧
      (turn.outcome = .ok next ∨ ∃ message, turn.outcome = .error (.stream message)) ∧
      (otherTurn.outcome = .ok next ∨ ∃ message, otherTurn.outcome = .error (.stream message)) ∧
      ∀ {υ : Type} [Sink υ] (metered : Metered υ none) (free : υ), metered.Covers free →
        (table.step line hasLine free).outcome = .ok next := by
  obtain ⟨rows, hrows⟩ := h.sound
  obtain ⟨next, hnext⟩ := h.sound.exists_outcome (if hasLine then some line else none)
  simp only [hrows.step_eq, true_and]
  refine ⟨rfl, rfl, next, ?_, ?_, ?_, ?_⟩
  · cases hasLine with
    | false => exact iff_of_true (Except.ok.inj hnext).symm (Or.inl rfl)
    | true =>
        rw [← Except.ok.injEq, ← hnext, if_pos rfl, outcome_respond_eq_exit_iff]
        exact (or_iff_right (by decide)).symm
  · rw [← hnext]
    exact Response.outcome_deliver _ sink
  · rw [← hnext]
    exact Response.outcome_deliver _ other
  · intro υ _ metered free hfree
    rw [← hnext]
    exact Response.outcome_deliver_of_unlimited _ metered hfree

/-- An insertion is made although its answer is lost. -/
theorem step_ignores_sink_of_lost_answer :
    let stuck := empty.step "insert 1 ann a@b" true ({ limits := { bytes := some 0 } } : Recorder)
    stuck.outcome = .error (.stream "closed") ∧ stuck.table.rows = .ok [⟨1, "ann", "a@b"⟩] := by
  have hanswer : Ledger.answer [] "insert 1 ann a@b" =
      some ([⟨1, "ann", "a@b"⟩], "Executed.\n") := by decide +kernel
  obtain ⟨hrows, htext⟩ := stores_empty.respond_of_answer hanswer
  have hexceeds : 0 < (String.join (empty.respond (some "insert 1 ann a@b")).text).utf8ByteSize := by
    rw [htext]
    decide
  let full : Recorder := { limits := { bytes := some 0 } }
  let metered := Recorder.metered full.limits (Limits.allowance_eq_some rfl) rfl
  obtain ⟨last, hwrite, -⟩ :=
    metered.writeAll_of_exceeds (show metered.Covers full from rfl) _ rfl hexceeds
  obtain ⟨hstuck, -⟩ :=
    Reachable.empty.step_ignores_sink "insert 1 ann a@b" true full ({} : Recorder)
  simp only [if_true] at hstuck
  refine ⟨(congrArg Turn.outcome hstuck).trans ?_,
    (congrArg (fun turn => turn.table.rows) hstuck).trans hrows⟩
  rw [Response.deliver, hwrite]
  rfl

end Table

end RowStore
