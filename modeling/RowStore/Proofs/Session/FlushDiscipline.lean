import Mathlib.Data.List.Forall2
import RowStore.Proofs.Session.OutputLimit
import RowStore.Proofs.Stream.Steady

/-! # When a session flushes

A session flushes behind each prompt, before it reads, and once more at its end.
So whoever is to type a line has seen all of the output. A sink that fails to
flush stops a session right there: what was asked for is not read any more, and
only the last flush comes too late to stop anything.
-/

namespace RowStore

open Text

namespace Source

/-- The exit command is none of the lines that a session answers. -/
theorem ne_exitCommand_of_mem_script {source : Source} {line : String}
    (h : line ∈ source.script.lines) : line ≠ Response.exitCommand := by
  induction source using lineInduction with
  | close source hclose =>
      rw [hclose] at h
      cases h
  | line source text rest hread hexit ih =>
      rw [script_of_line hread hexit] at h
      rcases List.mem_cons.mp h with rfl | hlater
      · exact hexit
      · exact ih hlater

end Source

namespace Table

theorem Sound.after {table : Table} (h : table.Sound) (lines : List String) :
    (table.after lines).Sound := by
  induction lines generalizing table with
  | nil => exact h
  | cons line lines ih => exact ih (h.respond_any (some line))

/-! ## Prompts in a dialogue -/

theorem promptEnds_nil (table : Table) : table.promptEnds [] = [Session.prompt.utf8ByteSize] := rfl

theorem length_promptEnds (table : Table) (lines : List String) :
    (table.promptEnds lines).length = lines.length + 1 := by
  rw [promptEnds, List.length_map, List.length_inits]

theorem promptEnds_getElem? (table : Table) {lines : List String} {count : Nat}
    (hcount : count ≤ lines.length) :
    (table.promptEnds lines)[count]? =
      some (table.dialogue (lines.take count)).utf8ByteSize := by
  have hlength : count < lines.inits.length := by
    rw [List.length_inits]
    exact Nat.lt_succ_of_le hcount
  rw [promptEnds, List.getElem?_map, List.getElem?_eq_getElem hlength, List.getElem_inits,
    Option.map_some]

/-- The last prompt ends the dialogue. -/
theorem getLast?_promptEnds (table : Table) (lines : List String) :
    (table.promptEnds lines).getLast? = some (table.dialogue lines).utf8ByteSize := by
  rw [List.getLast?_eq_getElem?, length_promptEnds, Nat.add_sub_cancel,
    table.promptEnds_getElem? (Nat.le_refl _), List.take_length]

theorem pairwise_promptEnds (table : Table) (lines : List String) :
    (table.promptEnds lines).Pairwise (· < ·) := by
  induction lines generalizing table with
  | nil => exact List.pairwise_singleton _ _
  | cons line lines ih =>
      rw [promptEnds_cons, List.pairwise_cons]
      have hprompt : 0 < Session.prompt.utf8ByteSize := by decide
      refine ⟨?_, (ih _).map _ ?_⟩
      · intro place hplace
        obtain ⟨later, hlater, rfl⟩ := List.mem_map.mp hplace
        have hle := le_of_mem_promptEnds hlater
        rw [String.utf8ByteSize_append]
        omega
      · intro place later hlt
        exact Nat.add_lt_add_left hlt _

/-- The dialogue about all lines begins with the one about the first of them. -/
theorem exists_dialogue_take (table : Table) (lines : List String) (count : Nat) :
    ∃ more, table.dialogue lines = table.dialogue (lines.take count) ++ more := by
  induction count generalizing table lines with
  | zero => exact table.exists_dialogue_eq lines
  | succ count ih =>
      cases lines with
      | nil => exact ⟨"", (String.append_empty).symm⟩
      | cons line lines =>
          obtain ⟨more, hmore⟩ := ih (table.respond (some line)).table lines
          refine ⟨more, ?_⟩
          rw [List.take_succ_cons, dialogue_cons, dialogue_cons, hmore, ← String.append_assoc]

theorem take_encode_dialogue (table : Table) (lines : List String) (count : Nat) :
    (Utf8.encode (table.dialogue lines)).take
        (table.dialogue (lines.take count)).utf8ByteSize =
      Utf8.encode (table.dialogue (lines.take count)) := by
  obtain ⟨more, hmore⟩ := table.exists_dialogue_take lines count
  rw [hmore, Utf8.take_encode_append_self]

theorem exists_take_of_mem_promptEnds {table : Table} {lines : List String} {place : Nat}
    (h : place ∈ table.promptEnds lines) :
    ∃ earlier, (Utf8.encode (table.dialogue lines)).take place =
      earlier ++ Utf8.encode Session.prompt := by
  obtain ⟨before, hbefore, rfl⟩ := List.mem_map.mp h
  have htake := List.prefix_iff_eq_take.mp ((List.mem_inits _ _).mp hbefore)
  refine ⟨Utf8.encode (table.transcript before), ?_⟩
  rw [htake, table.take_encode_dialogue, dialogue, Utf8.encode_append]

end Table

namespace Session

open Sink Sink.Steady

variable {σ : Type} [Sink σ]

/-! ## Prompts that are flushed -/

/-- The sink at each moment when a session asks its source for a line. -/
def asked (session : Session σ) : List σ :=
  match ask session.sink with
  | (_, .error _) => []
  | (sink, .ok ()) =>
    match _hcycle : session.cycle with
    | (next, none) => sink :: next.asked
    | (_, some _) => [sink]
termination_by session.source.pending.length
decreasing_by exact pending_lt_of_cycle _hcycle

theorem asked_of_cycle_none {session next : Session σ} {sink : σ}
    (hask : ask session.sink = (sink, .ok ())) (h : session.cycle = (next, none)) :
    session.asked = sink :: next.asked := by
  rw [asked, hask]
  simp only
  split
  next hcycle => rw [h] at hcycle; cases hcycle; rfl
  next hcycle => rw [h] at hcycle; cases hcycle

theorem asked_of_cycle_some {session last : Session σ} {sink : σ} {outcome : Except Fault Unit}
    (hask : ask session.sink = (sink, .ok ())) (h : session.cycle = (last, some outcome)) :
    session.asked = [sink] := by
  rw [asked, hask]
  simp only
  split
  next hcycle => rw [h] at hcycle; cases hcycle
  next hcycle => rfl

variable {limit : Option FlushLimit}

/-- The prompts of a session will all be flushed. -/
structure FlushesPrompts (steady : Steady σ limit) (session : Session σ) : Prop where
  sound : session.table.Sound
  covers : steady.Covers session.sink
  flushable : Flushable limit
    ((steady.marks session.sink).length + session.source.script.lines.length)

theorem ask_took {steady : Steady σ limit} {sink : σ} (hsink : steady.Covers sink)
    (hflush : Flushable limit (steady.marks sink).length) :
    ∃ next, ask sink = (next, .ok ()) ∧
      steady.Took sink next (Utf8.encode prompt) [prompt.utf8ByteSize] := by
  obtain ⟨middle, hwrite, hmiddle⟩ := (Took.refl hsink).write (Utf8.encode prompt)
  obtain ⟨next, hnext, htook⟩ := hmiddle.flush hflush
  rw [List.nil_append, Utf8.length_encode] at htook
  refine ⟨next, ?_, htook⟩
  rw [ask, hwrite]
  exact hnext

/-- A cycle whose prompt is flushed leads on to the next one, without another flush. -/
theorem cycle_took {steady : Steady σ limit} {session : Session σ} (hsound : session.table.Sound)
    (hsink : steady.Covers session.sink)
    (hflush : Flushable limit (steady.marks session.sink).length) {text : String} {rest : Source}
    (hread : session.source.readLine = (.line text, rest))
    (hexit : Blank.trim text ≠ Response.exitCommand) :
    ∃ sink next, ask session.sink = (sink, .ok ()) ∧ session.cycle = (next, none) ∧
      next.table = (session.table.respond (some (Blank.trim text))).table ∧ next.source = rest ∧
      steady.Took session.sink sink (Utf8.encode prompt) [prompt.utf8ByteSize] ∧
      steady.Took session.sink next.sink
        (Utf8.encode (prompt ++ String.join (session.table.respond (some (Blank.trim text))).text))
        [prompt.utf8ByteSize] := by
  obtain ⟨sink, hask, htook⟩ := ask_took hsink hflush
  obtain ⟨last, hwrite, hlast⟩ :=
    htook.writeAll (session.table.respond (some (Blank.trim text))).text
  rw [← Utf8.encode_append] at hlast
  exact ⟨sink, _, hask,
    (cycle_of_line hask hread).trans (answer_of_proceed hwrite (hsound.respond hexit).1),
    rfl, rfl, htook, hlast⟩

/-- Behind a line, one prompt less is left to be flushed. -/
theorem FlushesPrompts.next {steady : Steady σ limit} {session next : Session σ}
    (h : FlushesPrompts steady session) {text : String}
    (hread : session.source.readLine = (.line text, next.source))
    (hexit : Blank.trim text ≠ Response.exitCommand)
    (htable : next.table = (session.table.respond (some (Blank.trim text))).table)
    {bytes : List UInt8} {place : Nat}
    (htook : steady.Took session.sink next.sink bytes [place]) : FlushesPrompts steady next := by
  refine ⟨?_, htook.covers, ?_⟩
  · rw [htable]
    exact (h.sound.respond hexit).2
  · have hflush := h.flushable
    rw [Source.script_of_line hread hexit, List.length_cons, Nat.add_comm _ 1, ← Nat.add_assoc]
      at hflush
    rw [htook.length_marks]
    exact hflush

theorem flushedAt_prompt {steady : Steady σ limit} {sink next : σ}
    (h : steady.Took sink next (Utf8.encode prompt) [prompt.utf8ByteSize]) (table : Table)
    (lines : List String) :
    steady.FlushedAt sink (Utf8.encode (table.dialogue lines)) next prompt.utf8ByteSize := by
  obtain ⟨more, hmore⟩ := table.exists_dialogue_eq lines
  refine ⟨[], ?_⟩
  rwa [hmore, Utf8.take_encode_append_self]

/-- If the prompts of a session are flushed, its source is asked for a line right behind each of
them, and not at any other moment. -/
theorem FlushesPrompts.asked {steady : Steady σ limit} {session : Session σ}
    (h : FlushesPrompts steady session) :
    List.Forall₂
      (steady.FlushedAt session.sink
        (Utf8.encode (session.table.dialogue session.source.script.lines)))
      session.asked (session.table.promptEnds session.source.script.lines) := by
  induction hsource : session.source using Source.lineInduction generalizing session with
  | close source hclose =>
      subst hsource
      obtain ⟨sink, hask, htook⟩ := ask_took h.covers (h.flushable.mono (Nat.le_add_right _ _))
      obtain ⟨last, outcome, hcycle⟩ :
          ∃ last outcome, session.cycle = (last, some outcome) := by
        rcases cycle_of_close hask hclose with ⟨last, hcycle, -⟩ | ⟨-, hcycle⟩
        · exact ⟨last, _, hcycle⟩
        · obtain ⟨last, hcycle, -⟩ := hcycle _ _ rfl
          exact ⟨last, _, hcycle⟩
      rw [asked_of_cycle_some hask hcycle, hclose, Table.promptEnds_nil]
      exact .cons (flushedAt_prompt htook _ _) .nil
  | line source text rest hread hexit ih =>
      subst hsource
      obtain ⟨sink, next, hask, hcycle, htable, rfl, htook, hnext⟩ := cycle_took h.sound h.covers
        (h.flushable.mono (Nat.le_add_right _ _)) hread hexit
      have hrest := ih (h.next hread hexit htable hnext) rfl
      rw [htable] at hrest
      rw [asked_of_cycle_none hask hcycle, Source.script_of_line hread hexit]
      simp only [Table.promptEnds_cons]
      refine .cons (flushedAt_prompt htook _ _) ?_
      rw [List.forall₂_map_right_iff]
      refine hrest.imp ?_
      intro later place hplace
      have hbehind := hplace.behind hnext
      rwa [← Utf8.encode_append, ← Table.dialogue_cons, Utf8.length_encode] at hbehind

/-- If the prompts of a session are flushed and its reading does not fail, it comes down to one more
flush, which decides how it ends. -/
theorem FlushesPrompts.run {steady : Steady σ limit} {session : Session σ}
    (h : FlushesPrompts steady session) (houtcome : session.source.script.outcome = .ok ()) :
    ∃ sink, steady.Took session.sink sink
        (Utf8.encode (session.table.dialogue session.source.script.lines))
        (session.table.promptEnds session.source.script.lines) ∧
      ∀ flushed result, flush sink = (flushed, result) →
        ∃ last, session.run = (last, result.mapError .stream) ∧
          last.table = session.table.after session.source.script.lines ∧
          last.source = session.source.script.rest ∧ last.sink = flushed := by
  induction hsource : session.source using Source.lineInduction generalizing session with
  | close source hclose =>
      subst hsource
      obtain ⟨sink, hask, htook⟩ := ask_took h.covers (h.flushable.mono (Nat.le_add_right _ _))
      rcases cycle_of_close hask hclose with ⟨-, -, hfailed, -⟩ | ⟨-, hcycle⟩
      · exact absurd houtcome hfailed
      · rw [hclose, Table.promptEnds_nil]
        refine ⟨sink, htook, ?_⟩
        intro flushed result hresult
        obtain ⟨last, hcycle, hlast⟩ := hcycle flushed result hresult
        exact ⟨last, run_of_cycle_some hcycle, hlast⟩
  | line source text rest hread hexit ih =>
      subst hsource
      obtain ⟨-, next, -, hcycle, htable, rfl, -, hnext⟩ := cycle_took h.sound h.covers
        (h.flushable.mono (Nat.le_add_right _ _)) hread hexit
      rw [Source.script_of_line hread hexit] at houtcome ⊢
      obtain ⟨sink, htook, hclose⟩ := ih (h.next hread hexit htable hnext) houtcome rfl
      refine ⟨sink, ?_, ?_⟩
      · have hboth := hnext.trans htook
        rw [htable, ← Utf8.encode_append, Utf8.length_encode] at hboth
        simp only [Table.dialogue_cons, Table.promptEnds_cons]
        exact hboth
      · intro flushed result hresult
        obtain ⟨last, hrun, hlast⟩ := hclose flushed result hresult
        rw [htable] at hlast
        exact ⟨last, (run_of_cycle_none hcycle).trans hrun, hlast⟩

theorem run_of_all_flushed (steady : Steady σ limit) (session : Session σ)
    (hsound : session.table.Sound) (hsink : steady.Covers session.sink)
    (houtcome : session.source.script.outcome = .ok ())
    (hflush : Flushable limit
      ((steady.marks session.sink).length + (session.source.script.lines.length + 1))) :
    ∃ last, session.run = (last, .ok ()) ∧
      last.table = session.table.after session.source.script.lines ∧
      last.source = session.source.script.rest ∧
      steady.Took session.sink last.sink
        (Utf8.encode (session.table.dialogue session.source.script.lines))
        (session.table.promptEnds session.source.script.lines ++
          [(session.table.dialogue session.source.script.lines).utf8ByteSize]) := by
  have hprompts := hflush.mono (Nat.add_le_add_left (Nat.le_add_right _ 1) _)
  obtain ⟨sink, htook, hclose⟩ := FlushesPrompts.run ⟨hsound, hsink, hprompts⟩ houtcome
  rw [← session.table.length_promptEnds] at hflush
  obtain ⟨flushed, hresult, hlast⟩ := htook.flush hflush
  obtain ⟨last, hrun, htable, hsource, rfl⟩ := hclose _ _ hresult
  rw [Utf8.length_encode] at hlast
  exact ⟨last, hrun, htable, hsource, hlast⟩

/-! ## Prompts that are not flushed -/

section Refused

variable {limit : FlushLimit} {steady : Steady σ (some limit)}

theorem ask_took_of_count_le {sink : σ} (hsink : steady.Covers sink)
    (hcount : limit.count ≤ (steady.marks sink).length) :
    ∃ next, ask sink = (next, .error limit.refusal) ∧
      steady.Took sink next (Utf8.encode prompt) [] := by
  obtain ⟨middle, hwrite, hmiddle⟩ := (Took.refl hsink).write (Utf8.encode prompt)
  obtain ⟨next, hnext, htook⟩ := hmiddle.flush_of_count_le hcount
  refine ⟨next, ?_, htook⟩
  rw [ask, hwrite]
  exact hnext

/-- Behind a prompt that is not flushed, nothing more is read. -/
theorem run_of_count_le {session : Session σ} (hsink : steady.Covers session.sink)
    (hcount : limit.count ≤ (steady.marks session.sink).length) :
    ∃ last, session.run = (last, .error (.stream limit.refusal)) ∧ last.table = session.table ∧
      last.source = session.source ∧
      steady.Took session.sink last.sink (Utf8.encode prompt) [] := by
  obtain ⟨sink, hask, htook⟩ := ask_took_of_count_le hsink hcount
  exact ⟨_, run_of_cycle_some (cycle_of_ask_error hask), rfl, rfl, htook⟩

/-- A session goes on for as many lines as there are prompts that are flushed. -/
theorem run_of_flush_refused (steady : Steady σ (some limit)) (session : Session σ)
    (hsound : session.table.Sound) (hsink : steady.Covers session.sink) {room : Nat}
    (hroom : limit.count = (steady.marks session.sink).length + room)
    (hlines : room ≤ session.source.script.lines.length) :
    ∃ last, session.run = (last, .error (.stream limit.refusal)) ∧
      last.table = session.table.after (session.source.script.lines.take room) ∧
      last.source.pending = Source.dropLines room session.source.pending ∧
      last.source.ending = session.source.ending ∧
      steady.Took session.sink last.sink
        (Utf8.encode (session.table.dialogue (session.source.script.lines.take room)))
        ((session.table.promptEnds session.source.script.lines).take room) := by
  induction room generalizing session with
  | zero =>
      obtain ⟨last, hrun, htable, hsource, htook⟩ := run_of_count_le hsink (Nat.le_of_eq hroom)
      exact ⟨last, hrun, htable, congrArg Source.pending hsource, congrArg Source.ending hsource,
        htook⟩
  | succ room ih =>
      cases hsource : session.source using Source.lineInduction with
      | close source hclose =>
          subst hsource
          rw [hclose] at hlines
          cases hlines
      | line source text rest hread hexit _ =>
          subst hsource
          obtain ⟨-, next, -, hcycle, htable, rfl, -, hnext⟩ :=
            cycle_took hsound hsink (flushable_some.mpr (by omega)) hread hexit
          rw [Source.script_of_line hread hexit] at hlines ⊢
          have hleft : limit.count = (steady.marks next.sink).length + room := by
            rw [hroom, hnext.length_marks, List.length_singleton, Nat.add_assoc, Nat.add_comm 1]
          obtain ⟨last, hrun, hlast, hpending, hending, htook⟩ :=
            ih next (htable ▸ (hsound.respond hexit).2) hnext.covers hleft
              (Nat.le_of_succ_le_succ hlines)
          obtain ⟨hrest, hclose⟩ := Source.pending_of_line hread
          refine ⟨last, (run_of_cycle_none hcycle).trans hrun, ?_, ?_, hending.trans hclose, ?_⟩
          · rw [hlast, htable]
            rfl
          · rw [hpending, hrest]
            rfl
          · have hboth := hnext.trans htook
            rw [htable, ← Utf8.encode_append, Utf8.length_encode] at hboth
            simp only [List.take_succ_cons, Table.dialogue_cons, Table.promptEnds_cons,
              ← List.map_take]
            exact hboth

/-- The last flush fails when everything else is done. -/
theorem run_of_last_flush_refused (steady : Steady σ (some limit)) (session : Session σ)
    (hsound : session.table.Sound) (hsink : steady.Covers session.sink)
    (houtcome : session.source.script.outcome = .ok ())
    (hcount : limit.count =
      (steady.marks session.sink).length + (session.source.script.lines.length + 1)) :
    ∃ last, session.run = (last, .error (.stream limit.refusal)) ∧
      last.table = session.table.after session.source.script.lines ∧
      last.source = session.source.script.rest ∧
      steady.Took session.sink last.sink
        (Utf8.encode (session.table.dialogue session.source.script.lines))
        (session.table.promptEnds session.source.script.lines) := by
  have hprompts : Flushable (some limit)
      ((steady.marks session.sink).length + session.source.script.lines.length) :=
    flushable_some.mpr (by omega)
  obtain ⟨sink, htook, hclose⟩ := FlushesPrompts.run ⟨hsound, hsink, hprompts⟩ houtcome
  rw [← session.table.length_promptEnds] at hcount
  obtain ⟨flushed, hresult, hlast⟩ := htook.flush_of_count_le (Nat.le_of_eq hcount)
  obtain ⟨last, hrun, htable, hsource, rfl⟩ := hclose _ _ hresult
  exact ⟨last, hrun, htable, hsource, hlast⟩

end Refused

/-- A session that ends well flushes behind each prompt and once more at its end, and is asking for
a line only when all of its output has been flushed. A sink with a limited number of flushes makes
no difference if there are enough of them. Without the last one, only the outcome is different.
Without that behind some prompt, the session stops there: it has answered the lines before it, and
nothing behind them has been read. -/
theorem run_flushes_at_prompts {τ : Type} [Sink τ] {limit : FlushLimit} (whole : Steady τ none)
    (counted : Steady σ (some limit)) (table : Table) (source : Source) (unlimited : τ)
    (limited : σ) (htable : table.Reachable) (hunlimited : whole.Covers unlimited)
    (hlimited : counted.Covers limited) (room : Nat)
    (hroom : limit.count = (counted.marks limited).length + room)
    (hok : (run { table, source, sink := unlimited }).2 = .ok ()) :
    let start : Session τ := { table, source, sink := unlimited }
    let full := start.run.1
    let last := run { table, source, sink := limited }
    let lines := source.script.lines
    let output := Utf8.encode (table.dialogue lines)
    let ends := table.promptEnds lines
    (∀ before line after, lines = before ++ line :: after →
      ((table.after before).respond (some line)).outcome = .ok .proceed) ∧
    full.table = table.after lines ∧
    ends.length = lines.length + 1 ∧ ends.Pairwise (· < ·) ∧
    ends.getLast? = some output.length ∧
    (∀ place ∈ ends, ∃ earlier, output.take place = earlier ++ Utf8.encode prompt) ∧
    whole.Took unlimited full.sink output (ends ++ [output.length]) ∧
    List.Forall₂ (whole.FlushedAt unlimited output) start.asked ends ∧
    (lines.length + 2 ≤ room →
      last.2 = .ok () ∧ last.1.table = full.table ∧ last.1.source = full.source ∧
        counted.Took limited last.1.sink output (ends ++ [output.length])) ∧
    (room = lines.length + 1 →
      last.2 = .error (.stream limit.refusal) ∧ last.1.table = full.table ∧
        last.1.source = full.source ∧ counted.Took limited last.1.sink output ends) ∧
    (room ≤ lines.length → ∃ place, ends[room]? = some place ∧
      last.2 = .error (.stream limit.refusal) ∧ last.1.table = table.after (lines.take room) ∧
        last.1.source.pending = Source.dropLines room source.pending ∧
        last.1.source.ending = source.ending ∧
        counted.Took limited last.1.sink (output.take place) (ends.take room)) := by
  intro start full last lines output ends
  have hsound := htable.sound
  have hlength : output.length = (table.dialogue lines).utf8ByteSize := Utf8.length_encode _
  have hscript : source.script.outcome = .ok () := by
    obtain ⟨whole', hfull, -⟩ :=
      run_of_within whole.metered start hsound hunlimited (within_none _)
    rwa [hfull] at hok
  have hflushes : FlushesPrompts whole start := ⟨hsound, hunlimited, flushable_none _⟩
  obtain ⟨whole', hfull, hfullTable, hfullSource, htook⟩ :=
    run_of_all_flushed whole start hsound hunlimited hscript (flushable_none _)
  simp only [full, last, hfull, hlength]
  refine ⟨?_, hfullTable, table.length_promptEnds lines, table.pairwise_promptEnds lines,
    table.getLast?_promptEnds lines, fun _ hplace => Table.exists_take_of_mem_promptEnds hplace,
    htook, hflushes.asked, ?_, ?_, ?_⟩
  · intro before line after hlines
    have hmem : line ∈ lines := by
      rw [hlines]
      exact List.mem_append_right _ List.mem_cons_self
    exact ((hsound.after before).respond (Source.ne_exitCommand_of_mem_script hmem)).1
  · intro henough
    obtain ⟨last', hlast, hlastTable, hlastSource, htook⟩ :=
      run_of_all_flushed counted { table, source, sink := limited } hsound hlimited hscript
        (flushable_some.mpr (by rw [hroom]; exact Nat.add_lt_add_left henough _))
    rw [hlast]
    exact ⟨rfl, hlastTable.trans hfullTable.symm, hlastSource.trans hfullSource.symm, htook⟩
  · rintro rfl
    obtain ⟨last', hlast, hlastTable, hlastSource, htook⟩ :=
      run_of_last_flush_refused counted { table, source, sink := limited } hsound hlimited hscript
        hroom
    rw [hlast]
    exact ⟨rfl, hlastTable.trans hfullTable.symm, hlastSource.trans hfullSource.symm, htook⟩
  · intro hfew
    obtain ⟨last', hlast, hlastTable, hpending, hending, htook⟩ :=
      run_of_flush_refused counted { table, source, sink := limited } hsound hlimited hroom hfew
    rw [hlast]
    refine ⟨_, table.promptEnds_getElem? hfew, rfl, hlastTable, hpending, hending, ?_⟩
    rw [table.take_encode_dialogue]
    exact htook

/-- The prompt behind an insertion is not flushed, so the exit command is not read. -/
theorem run_flushes_at_prompts_refused_before_exit :
    (recorded (Utf8.encode "insert 1 ann a@b\n.exit") none { flushes := some 1 }).run.2 =
      .error (.stream "closed") ∧
    (recorded (Utf8.encode "insert 1 ann a@b\n.exit") none
      { flushes := some 1 }).run.1.source.pending = Utf8.encode ".exit" ∧
    (recorded (Utf8.encode "insert 1 ann a@b\n.exit") none
      { flushes := some 1 }).run.1.sink.written.toList = Utf8.encode "db > Executed.\ndb > " ∧
    (recorded (Utf8.encode "insert 1 ann a@b\n.exit") none
      { flushes := some 1 }).run.1.sink.flushes.toList = [5] ∧
    (recorded (Utf8.encode "insert 1 ann a@b\n.exit") none
      { flushes := some 1 }).run.1.table.rows = .ok [⟨1, "ann", "a@b"⟩] := by
  have hshows := Source.shows_ofBytes (Utf8.encode "insert 1 ann a@b\n.exit") none none
  obtain ⟨hlines, hscript⟩ := Source.script_of_encode hshows
  have hanswered : Ledger.answered (Ledger.lines "insert 1 ann a@b\n.exit") =
      ["insert 1 ann a@b"] := by decide +kernel
  rw [hanswered] at hlines
  have hok : (recorded (Utf8.encode "insert 1 ann a@b\n.exit") none {}).run.2 = .ok () := by
    obtain ⟨last, hrun, -⟩ :=
      run_of_within (Recorder.metered {} (Limits.allowance_eq_none rfl) rfl)
        (recorded (Utf8.encode "insert 1 ann a@b\n.exit") none {}) ⟨[], Table.stores_empty⟩ rfl
        (within_none _)
    rw [hrun]
    exact hscript
  obtain ⟨-, -, -, -, -, -, -, -, -, -, hfew⟩ :=
    run_flushes_at_prompts (Recorder.steady {} rfl rfl)
      (Recorder.steady { flushes := some 1 } rfl rfl) .empty _ {}
      { limits := { flushes := some 1 } } .empty rfl rfl 1 rfl hok
  simp only [hlines] at hfew
  obtain ⟨place, hplace, houtcome, htable, hpending, -, htook⟩ := hfew (Nat.le_refl 1)
  have hanswer : Ledger.answer [] "insert 1 ann a@b" =
      some ([⟨1, "ann", "a@b"⟩], "Executed.\n") := by decide +kernel
  obtain ⟨hrows, hshown⟩ := Table.stores_empty.respond_of_answer hanswer
  have hdialogue : Table.empty.dialogue ["insert 1 ann a@b"] = "db > Executed.\ndb > " := by
    rw [Table.dialogue_cons, hshown]
    decide
  have htake : ["insert 1 ann a@b"].take 1 = ["insert 1 ann a@b"] := rfl
  rw [Table.empty.promptEnds_getElem? (by decide), Option.some.injEq] at hplace
  rw [← hplace, Table.take_encode_dialogue, htake, hdialogue, Table.promptEnds_cons,
    List.take_succ_cons, List.take_zero] at htook
  rw [hshows.1] at hpending
  have hdropped : Source.dropLines 1 (Utf8.encode "insert 1 ann a@b\n.exit") =
      Utf8.encode ".exit" := by decide +kernel
  exact ⟨houtcome, hpending.trans hdropped, htook.written_eq, htook.marks_eq,
    (congrArg Table.rows htable).trans hrows⟩

end Session

end RowStore
