import RowStore.Session

/-! # The ways through a cycle

What a cycle of a session does, one equation for each way through it: whether
the prompt is taken, what is read, and whether the answer is taken. Nothing but
these equations is needed of the cycle elsewhere.
-/

namespace RowStore.Session

open Text

variable {σ : Type} [Sink σ] {session : Session σ} {sink : σ}

/-! ## Answers -/

theorem answer_of_proceed {line : Option String}
    (hwrite : Sink.writeAll session.sink (session.table.respond line).text = (sink, .ok ()))
    (houtcome : (session.table.respond line).outcome = .ok .proceed) :
    session.answer line =
      ({ session with
          table := (session.table.respond line).table
          sink
          events := session.events ++ (session.table.respond line).events }, none) := by
  simp only [answer, Response.deliver, hwrite, houtcome]

theorem answer_of_exit {line : Option String} {last : σ}
    (hwrite : Sink.writeAll session.sink (session.table.respond line).text = (sink, .ok ()))
    (houtcome : (session.table.respond line).outcome = .ok .exit)
    (hflush : Sink.flush sink = (last, .ok ())) :
    session.answer line =
      ({ session with
          table := (session.table.respond line).table
          sink := last
          events := session.events ++ (session.table.respond line).events }, some (.ok ())) := by
  simp only [answer, Response.deliver, hwrite, houtcome, hflush]

theorem answer_of_flush_error {line : Option String} {last : σ} {message : String}
    (hwrite : Sink.writeAll session.sink (session.table.respond line).text = (sink, .ok ()))
    (houtcome : (session.table.respond line).outcome = .ok .exit)
    (hflush : Sink.flush sink = (last, .error message)) :
    session.answer line =
      ({ session with
          table := (session.table.respond line).table
          sink := last
          events := session.events ++ (session.table.respond line).events },
        some (.error (.stream message))) := by
  simp only [answer, Response.deliver, hwrite, houtcome, hflush]

theorem answer_of_write_error {line : Option String} {message : String}
    (hwrite : Sink.writeAll session.sink (session.table.respond line).text =
      (sink, .error message)) :
    session.answer line =
      ({ session with
          table := (session.table.respond line).table
          sink
          events := session.events ++ (session.table.respond line).events },
        some (.error (.stream message))) := by
  simp only [answer, Response.deliver, hwrite]

/-- An answer leads on, or to a fault of the sink or of the response, or to the end that its line
asks for. -/
theorem answer_cases (session : Session σ) (line : Option String) :
    (session.answer line).2 = none ∧ (session.table.respond line).outcome = .ok .proceed ∨
    (∃ fault, (session.answer line).2 = some (.error fault) ∧
      ((∃ message, fault = .stream message) ∨
        (session.table.respond line).outcome = .error fault)) ∨
    (session.answer line).2 = some (.ok ()) ∧ (session.table.respond line).outcome = .ok .exit := by
  simp only [answer, Response.deliver]
  rcases Sink.writeAll session.sink (session.table.respond line).text with ⟨sink, message | -⟩
  · exact Or.inr (Or.inl ⟨_, rfl, Or.inl ⟨message, rfl⟩⟩)
  · rcases (session.table.respond line).outcome with fault | next
    · exact Or.inr (Or.inl ⟨fault, rfl, Or.inr rfl⟩)
    · cases next with
      | proceed => exact Or.inl ⟨rfl, rfl⟩
      | exit =>
          rcases Sink.flush sink with ⟨last, message | -⟩
          · exact Or.inr (Or.inl ⟨_, rfl, Or.inl ⟨message, rfl⟩⟩)
          · exact Or.inr (Or.inr ⟨rfl, rfl⟩)

/-! ## Cycles -/

theorem cycle_of_ask_error {message : String} (hask : ask session.sink = (sink, .error message)) :
    session.cycle = ({ session with sink }, some (.error (.stream message))) := by
  simp only [cycle, hask]

theorem cycle_of_failed {rest : Source} {message : String}
    (hask : ask session.sink = (sink, .ok ()))
    (hread : session.source.readLine = (.failed message, rest)) :
    session.cycle = ({ session with source := rest, sink }, some (.error (.stream message))) := by
  simp only [cycle, hask, hread]

theorem cycle_of_ended {rest : Source} (hask : ask session.sink = (sink, .ok ()))
    (hread : session.source.readLine = (.ended, rest)) :
    session.cycle = answer { session with source := rest, sink } none := by
  simp only [cycle, hask, hread]

theorem cycle_of_line {rest : Source} {text : String} (hask : ask session.sink = (sink, .ok ()))
    (hread : session.source.readLine = (.line text, rest)) :
    session.cycle = answer { session with source := rest, sink } (some (Blank.trim text)) := by
  simp only [cycle, hask, hread]

end RowStore.Session
