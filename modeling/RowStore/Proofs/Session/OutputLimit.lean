import Mathlib.Data.List.Infix
import RowStore.Proofs.Session.Refinement

/-! # Output that is cut

A sink that takes a limited number of bytes stops a session at exactly that
byte of its transcript. The table does not notice: it has answered the lines
whose prompts came through whole, the last of them even if its answer was cut.
-/

namespace RowStore

open Text

namespace Table

/-- The places in a dialogue right behind its prompts. -/
def promptEnds (table : Table) (lines : List String) : List Nat :=
  lines.inits.map fun before => (table.dialogue before).utf8ByteSize

/-- The number of prompts that lie within the first bytes of a dialogue. -/
def promptsWithin (table : Table) (lines : List String) (room : Nat) : Nat :=
  (table.promptEnds lines).countP (· ≤ room)

theorem exists_dialogue_eq (table : Table) (lines : List String) :
    ∃ more, table.dialogue lines = Session.prompt ++ more := by
  cases lines with
  | nil => exact ⟨"", rfl⟩
  | cons line lines => exact ⟨_, by rw [dialogue_cons, String.append_assoc]⟩

theorem le_of_mem_promptEnds {table : Table} {lines : List String} {place : Nat}
    (h : place ∈ table.promptEnds lines) : Session.prompt.utf8ByteSize ≤ place := by
  obtain ⟨before, -, rfl⟩ := List.mem_map.mp h
  obtain ⟨more, hmore⟩ := table.exists_dialogue_eq before
  rw [hmore, String.utf8ByteSize_append]
  exact Nat.le_add_right _ _

/-- The prompts behind the first answer are those of the table after it. -/
theorem promptEnds_cons (table : Table) (line : String) (lines : List String) :
    table.promptEnds (line :: lines) =
      Session.prompt.utf8ByteSize ::
        ((table.respond (some line)).table.promptEnds lines).map
          ((Session.prompt ++ String.join (table.respond (some line)).text).utf8ByteSize + ·) := by
  rw [promptEnds, List.inits_cons, List.map_cons, List.map_map, promptEnds, List.map_map]
  refine congrArg _ (List.map_congr_left ?_)
  intro before _
  simp only [Function.comp_apply, dialogue_cons, String.utf8ByteSize_append]

theorem promptsWithin_of_lt {table : Table} {lines : List String} {room : Nat}
    (h : room < Session.prompt.utf8ByteSize) : table.promptsWithin lines room = 0 := by
  rw [promptsWithin, List.countP_eq_zero]
  intro place hplace
  have hle := le_of_mem_promptEnds hplace
  simp only [decide_eq_true_eq]
  omega

/-- With room for the first prompt, but not for all of the answer behind it. -/
theorem promptsWithin_cons_of_lt {table : Table} {line : String} {lines : List String} {room : Nat}
    (hprompt : Session.prompt.utf8ByteSize ≤ room)
    (hcut : room <
      (Session.prompt ++ String.join (table.respond (some line)).text).utf8ByteSize) :
    table.promptsWithin (line :: lines) room = 1 := by
  rw [promptsWithin, promptEnds_cons, List.countP_cons_of_pos (by simpa using hprompt),
    Nat.add_eq_right, List.countP_eq_zero]
  intro place hplace
  obtain ⟨later, -, rfl⟩ := List.mem_map.mp hplace
  simp only [decide_eq_true_eq]
  omega

/-- With room for the first prompt and for the answer behind it. -/
theorem promptsWithin_cons_add (table : Table) (line : String) (lines : List String) (left : Nat) :
    table.promptsWithin (line :: lines)
        ((Session.prompt ++ String.join (table.respond (some line)).text).utf8ByteSize + left) =
      (table.respond (some line)).table.promptsWithin lines left + 1 := by
  rw [promptsWithin, promptEnds_cons, List.countP_cons_of_pos, List.countP_map, promptsWithin]
  · refine congrArg (· + 1) (List.countP_congr ?_)
    intro place _
    simp only [Function.comp_apply, decide_eq_true_eq]
    omega
  · simp only [decide_eq_true_eq, String.utf8ByteSize_append]
    omega

end Table

namespace Session

open Sink

variable {σ : Type} [Sink σ] {limit : Allowance}

theorem ask_of_exceeds (metered : Metered σ (some limit)) {sink : σ} (hsink : metered.Covers sink)
    {room : Nat} (hroom : limit.bytes = (metered.written sink).length + room)
    (hexceeds : room < prompt.utf8ByteSize) :
    ∃ next, ask sink = (next, .error limit.refusal) ∧
      metered.written next = metered.written sink ++ (Utf8.encode prompt).take room := by
  rw [← Utf8.length_encode] at hexceeds
  obtain ⟨next, hwrite, hnext, -⟩ := metered.write_of_exceeds hsink _ hroom hexceeds
  exact ⟨next, by rw [ask, hwrite], hnext⟩

/-- A cycle whose prompt is taken, but whose answer is cut. The line has been answered. -/
theorem cycle_of_answer_exceeds (metered : Metered σ (some limit)) {session : Session σ}
    (hsink : metered.Covers session.sink) {text : String} {rest : Source}
    (hread : session.source.readLine = (.line text, rest)) {room : Nat}
    (hroom : limit.bytes = (metered.written session.sink).length + room)
    (hprompt : prompt.utf8ByteSize ≤ room)
    (hexceeds : room <
      (prompt ++ String.join (session.table.respond (some (Blank.trim text))).text).utf8ByteSize) :
    ∃ last, session.cycle = (last, some (.error (.stream limit.refusal))) ∧
      last.table = (session.table.respond (some (Blank.trim text))).table ∧
      metered.written last.sink = metered.written session.sink ++ (Utf8.encode
        (prompt ++ String.join (session.table.respond (some (Blank.trim text))).text)).take
          room := by
  obtain ⟨left, rfl⟩ := Nat.exists_eq_add_of_le hprompt
  obtain ⟨middle, hask, hmiddle, hcovers⟩ :=
    ask_of_within metered hsink (within_some.mpr (by omega))
  have hleft : limit.bytes = (metered.written middle).length + left := by
    rw [hroom, hmiddle, List.length_append, Utf8.length_encode, Nat.add_assoc]
  rw [String.utf8ByteSize_append] at hexceeds
  obtain ⟨next, hwrite, hnext, -⟩ :=
    metered.writeAll_of_exceeds hcovers _ hleft (Nat.lt_of_add_lt_add_left hexceeds)
  refine ⟨_, (cycle_of_line hask hread).trans (answer_of_write_error hwrite), rfl, ?_⟩
  rw [hnext, hmiddle, List.append_assoc, Utf8.take_encode_append_add]

/-- A session whose output goes beyond what its sink takes. -/
theorem run_of_exceeds (metered : Metered σ (some limit)) (session : Session σ)
    (hsound : session.table.Sound) (hsink : metered.Covers session.sink) {room : Nat}
    (hroom : limit.bytes = (metered.written session.sink).length + room)
    (hexceeds : room < (session.table.dialogue session.source.script.lines).utf8ByteSize) :
    ∃ last, session.run = (last, .error (.stream limit.refusal)) ∧
      last.table = session.table.after (session.source.script.lines.take
        (session.table.promptsWithin session.source.script.lines room)) ∧
      metered.written last.sink = metered.written session.sink ++
        (Utf8.encode (session.table.dialogue session.source.script.lines)).take room := by
  induction hsource : session.source using Source.lineInduction generalizing session room with
  | close source hclose =>
      subst hsource
      rw [hclose] at hexceeds ⊢
      obtain ⟨sink, hask, hwritten⟩ := ask_of_exceeds metered hsink hroom hexceeds
      refine ⟨_, run_of_cycle_some (cycle_of_ask_error hask), ?_, hwritten⟩
      rw [List.take_nil]
      rfl
  | line source text rest hread hexit ih =>
      subst hsource
      rw [Source.script_of_line hread hexit] at hexceeds ⊢
      simp only [Table.dialogue_cons] at hexceeds ⊢
      rw [String.utf8ByteSize_append] at hexceeds
      rcases Nat.lt_or_ge room prompt.utf8ByteSize with hcut | hprompt
      · -- The prompt is cut, so the line is not even read.
        obtain ⟨sink, hask, hwritten⟩ := ask_of_exceeds metered hsink hroom hcut
        refine ⟨_, run_of_cycle_some (cycle_of_ask_error hask), ?_, ?_⟩
        · rw [Table.promptsWithin_of_lt hcut]
          rfl
        · rw [hwritten, String.append_assoc, Utf8.take_encode_append hcut]
      · rcases Nat.lt_or_ge room (prompt ++
          String.join (session.table.respond (some (Blank.trim text))).text).utf8ByteSize with
          hcut | hfits
        · -- The answer is cut, so the line has been answered already.
          obtain ⟨last, hcycle, htable, hwritten⟩ :=
            cycle_of_answer_exceeds metered hsink hread hroom hprompt hcut
          refine ⟨last, run_of_cycle_some hcycle, ?_, ?_⟩
          · rw [htable, Table.promptsWithin_cons_of_lt hprompt hcut]
            rfl
          · rw [hwritten, Utf8.take_encode_append hcut]
        · -- What is left of the room is for the rest of the dialogue.
          obtain ⟨left, rfl⟩ := Nat.exists_eq_add_of_le hfits
          obtain ⟨next, hcycle, htable, rfl, hwritten, hcovers⟩ :=
            cycle_of_answer_within metered hsound hsink hread hexit (within_some.mpr (by omega))
          have hnext : next.table.Sound := by
            rw [htable]
            exact (hsound.respond hexit).2
          have hleft : limit.bytes = (metered.written next.sink).length + left := by
            rw [hroom, hwritten, List.length_append, Utf8.length_encode, Nat.add_assoc]
          have hrest : left < (next.table.dialogue next.source.script.lines).utf8ByteSize := by
            rw [htable]
            exact Nat.lt_of_add_lt_add_left hexceeds
          obtain ⟨last, hrun, hlast, hend⟩ := ih next hnext hcovers hleft hrest rfl
          refine ⟨last, (run_of_cycle_none hcycle).trans hrun, ?_, ?_⟩
          · rw [hlast, htable, Table.promptsWithin_cons_add]
            rfl
          · rw [hend, hwritten, htable, List.append_assoc, Utf8.take_encode_append_add]

/-- A sink that takes a limited number of bytes shows as much of the output of a session, and
changes nothing else if that is all of it. Otherwise the session fails with what the sink says of
the first byte too many, and the table has answered as many lines as there are whole prompts among
the bytes that were taken. -/
theorem run_cut_at_allowance {τ : Type} [Sink τ] (whole : Metered τ none)
    (cut : Metered σ (some limit)) (table : Table) (source : Source) (unlimited : τ) (limited : σ)
    (htable : table.Reachable) (hunlimited : whole.Covers unlimited)
    (hlimited : cut.Covers limited) (room : Nat)
    (hroom : limit.bytes = (cut.written limited).length + room) :
    let lines := source.script.lines
    let output := Utf8.encode (table.dialogue lines)
    let full := run { table, source, sink := unlimited }
    let last := run { table, source, sink := limited }
    whole.written full.1.sink = whole.written unlimited ++ output ∧
    full.1.table = table.after lines ∧
    (output.length ≤ room →
      cut.written last.1.sink = cut.written limited ++ output ∧ last.2 = full.2 ∧
        last.1.table = full.1.table ∧ last.1.source = full.1.source) ∧
    (room < output.length →
      cut.written last.1.sink = cut.written limited ++ output.take room ∧
        last.2 = .error (.stream limit.refusal) ∧
        last.1.table = table.after (lines.take (table.promptsWithin lines room))) := by
  intro lines output full last
  have hlength : output.length = (table.dialogue lines).utf8ByteSize := Utf8.length_encode _
  obtain ⟨whole', hfull, hfullTable, hfullSource, hfullWritten, -⟩ :=
    run_of_within whole { table, source, sink := unlimited } htable.sound hunlimited (within_none _)
  simp only [full, last, hfull]
  refine ⟨hfullWritten, hfullTable, ?_, ?_⟩
  · intro hfits
    rw [hlength] at hfits
    obtain ⟨cut', hlast, hlastTable, hlastSource, hlastWritten, -⟩ :=
      run_of_within cut { table, source, sink := limited } htable.sound hlimited
        (within_some.mpr (hroom ▸ Nat.add_le_add_left hfits _))
    rw [hlast]
    exact ⟨hlastWritten, rfl, hlastTable.trans hfullTable.symm, hlastSource.trans hfullSource.symm⟩
  · intro hexceeds
    rw [hlength] at hexceeds
    obtain ⟨cut', hlast, hlastTable, hlastWritten⟩ :=
      run_of_exceeds cut { table, source, sink := limited } htable.sound hlimited hroom hexceeds
    rw [hlast]
    exact ⟨hlastWritten, rfl, hlastTable⟩

/-- The output is cut in the answer to the first of two lines, whose row is stored. -/
theorem run_cut_at_allowance_in_answer :
    (recorded (Utf8.encode "insert 1 ann a@b\nselect") none
      { bytes := some 7, stalls := true }).run.2 = .error (.stream Sink.stalled) ∧
    (recorded (Utf8.encode "insert 1 ann a@b\nselect") none
      { bytes := some 7, stalls := true }).run.1.sink.written.toList = Utf8.encode "db > Ex" ∧
    (recorded (Utf8.encode "insert 1 ann a@b\nselect") none
      { bytes := some 7, stalls := true }).run.1.table.rows = .ok [⟨1, "ann", "a@b"⟩] := by
  obtain ⟨-, -, -, hcut⟩ :=
    run_cut_at_allowance (Recorder.metered {} (Limits.allowance_eq_none rfl) rfl)
      (Recorder.metered { bytes := some 7, stalls := true } (Limits.allowance_eq_some rfl) rfl)
      .empty (.ofBytes (Utf8.encode "insert 1 ann a@b\nselect") none none) {}
      { limits := { bytes := some 7, stalls := true } } .empty rfl rfl 7 rfl
  have hlines : Ledger.answered (Ledger.lines "insert 1 ann a@b\nselect") =
      ["insert 1 ann a@b", "select"] := by decide +kernel
  have hanswer : Ledger.answer [] "insert 1 ann a@b" =
      some ([⟨1, "ann", "a@b"⟩], "Executed.\n") := by decide +kernel
  obtain ⟨hrows, htext⟩ := Table.stores_empty.respond_of_answer hanswer
  have hprompts : Table.empty.promptsWithin ["insert 1 ann a@b", "select"] 7 = 1 := by
    apply Table.promptsWithin_cons_of_lt (by decide)
    rw [htext]
    decide
  obtain ⟨more, hdialogue⟩ : ∃ more, Table.empty.dialogue ["insert 1 ann a@b", "select"] =
      "db > Executed.\n" ++ more := ⟨_, by rw [Table.dialogue_cons, htext]; rfl⟩
  have hsize : 7 < "db > Executed.\n".utf8ByteSize := by decide
  simp only at hcut
  rw [(Source.script_of_encode (Source.shows_ofBytes _ none none)).1, hlines, hprompts, hdialogue,
    Utf8.take_encode_append hsize, Utf8.length_encode, String.utf8ByteSize_append,
    Recorder.written_metered, Recorder.written_metered] at hcut
  obtain ⟨hwritten, houtcome, htable⟩ := hcut (Nat.lt_add_right _ hsize)
  exact ⟨houtcome, hwritten, (congrArg Table.rows htable).trans hrows⟩

end Session

end RowStore
