import RowStore.Proofs.Session.Reachable

/-! # Input that breaks off

When reading fails at some byte, the lines that are whole before that byte are
answered, and nothing of the line that is cut. A line that is not valid ends a
session in the same way, right behind its newline. So three endings race by
their positions: the exit command, an invalid line and the failure.
-/

namespace RowStore

open Text

namespace Source

/-! ## Lines that end a session -/

/-- A line that is valid and not the exit command. -/
def Passes (line : List UInt8) : Prop :=
  ∃ text, text? line = some text ∧ text ≠ Response.exitCommand

/-- One of the lines is the exit command, and all lines before it are valid. -/
def Exits (lines : List (List UInt8)) : Prop :=
  ∃ before line after, lines = before ++ line :: after ∧
    text? line = some Response.exitCommand ∧ ∀ other ∈ before, (text? other).isSome

theorem passes_of_ne_exit {line : List UInt8} (hvalid : (text? line).isSome)
    (hexit : text? line ≠ some Response.exitCommand) : Passes line := by
  obtain ⟨text, htext⟩ := Option.isSome_iff_exists.mp hvalid
  refine ⟨text, htext, ?_⟩
  rintro rfl
  exact hexit htext

/-- Of several exit commands, the first one counts. -/
theorem Exits.first {lines : List (List UInt8)} (h : Exits lines) :
    ∃ before line after, lines = before ++ line :: after ∧
      text? line = some Response.exitCommand ∧ ∀ other ∈ before, Passes other := by
  obtain ⟨before, line, after, rfl, hline, hbefore⟩ := h
  -- The lines before it may hold an exit command themselves, which then comes first.
  induction before with
  | nil => exact ⟨[], line, after, rfl, hline, by simp⟩
  | cons first before ih =>
      by_cases hfirst : text? first = some Response.exitCommand
      · exact ⟨[], first, before ++ line :: after, rfl, hfirst, by simp⟩
      · have hrest : ∀ other ∈ before, (text? other).isSome := by
          intro other hother
          exact hbefore other (List.mem_cons_of_mem _ hother)
        obtain ⟨shorter, exit, later, heq, hexit, hshorter⟩ := ih hrest
        refine ⟨first :: shorter, exit, later, by rw [List.cons_append, heq]; rfl, hexit, ?_⟩
        intro other hother
        rcases List.mem_cons.mp hother with rfl | hother
        · exact passes_of_ne_exit (hbefore other List.mem_cons_self) hfirst
        · exact hshorter other hother

theorem passes_of_not_exits {lines before after : List (List UInt8)} (h : ¬ Exits lines)
    (hlines : lines = before ++ after) (hvalid : ∀ line ∈ before, (text? line).isSome) :
    ∀ line ∈ before, Passes line := by
  intro line hline
  apply passes_of_ne_exit (hvalid line hline)
  -- An exit command among the valid lines would be a way to exit.
  intro hexit
  obtain ⟨earlier, later, rfl⟩ := List.append_of_mem hline
  apply h
  refine ⟨earlier, line, later ++ after, by simp [hlines], hexit, ?_⟩
  intro other hother
  exact hvalid other (List.mem_append_left _ hother)

theorem not_exits_of_passes {lines : List (List UInt8)} (h : ∀ line ∈ lines, Passes line) :
    ¬ Exits lines := by
  rintro ⟨before, line, after, rfl, hline, -⟩
  obtain ⟨text, htext, hexit⟩ := h line (List.mem_append_right _ List.mem_cons_self)
  rw [hline] at htext
  exact hexit (Option.some.inj htext).symm

/-! ## Scripts of failing sources -/

theorem unread_eq_add {source rest : Source} {taken : List UInt8}
    (hpending : source.pending = taken ++ rest.pending) (hending : rest.ending = source.ending) :
    source.unread = taken.length + rest.unread := by
  rw [unread, unread, hending, hpending, List.length_append]
  cases source.ending with
  | complete => rfl
  | failure message hidden => exact Nat.add_assoc _ _ _

theorem Shows.unread_eq {source : Source} {bytes : List UInt8} {failure : Option (Nat × String)}
    (h : source.Shows bytes failure) : source.unread = bytes.length := by
  match failure, h with
  | none, ⟨hpending, hending⟩ => rw [unread, hending, hpending]
  | some (place, message), h =>
      rw [Shows] at h
      split at h
      next hplace =>
        rw [unread, h.2, h.1]
        simp only [List.length_take]
        omega
      next => rw [unread, h.2, h.1]

/-- The bytes of some lines, each with its newline. -/
def join (lines : List (List UInt8)) : List UInt8 :=
  lines.flatMap (· ++ [newline])

/-- A line that ends a session ends the script behind the lines before it. -/
theorem script_of_stop {source : Source} {before after : List (List UInt8)} {line : List UInt8}
    {close : Close} (hlines : wholeLines source.pending = before ++ line :: after)
    (hbefore : ∀ other ∈ before, Passes other)
    (hline : ∀ (next : Source) rest, next.pending = line ++ newline :: rest → newline ∉ line →
      ∃ last : Source, last.pending = rest ∧ last.ending = next.ending ∧
        next.script = { lines := [], close, rest := last }) :
    source.script.lines = before.filterMap text? ∧ source.script.close = close ∧
      source.unread = (join (before ++ [line])).length + source.script.rest.unread := by
  obtain ⟨next, hpending, hending, hafter, hscript⟩ := script_of_wholeLines hlines hbefore
  obtain ⟨rest, hnext, hmem, -⟩ := eq_append_of_wholeLines_eq_cons hafter
  obtain ⟨last, hlast, hclose, hstop⟩ := hline next rest hnext hmem
  rw [hscript, hstop]
  refine ⟨List.append_nil _, rfl, unread_eq_add ?_ (hclose.trans hending)⟩
  rw [hpending, hnext, hlast, join, List.flatMap_append, List.flatMap_singleton, List.append_assoc,
    List.append_assoc, List.singleton_append]

theorem script_of_exit_command {source : Source} {before after : List (List UInt8)}
    {line : List UInt8} (hlines : wholeLines source.pending = before ++ line :: after)
    (hbefore : ∀ other ∈ before, Passes other) (hline : text? line = some Response.exitCommand) :
    source.script.lines = before.filterMap text? ∧ source.script.close = .exit ∧
      source.unread = (join (before ++ [line])).length + source.script.rest.unread :=
  script_of_stop hlines hbefore fun _ _ hnext hmem => script_of_text?_exit hnext hmem hline

theorem script_of_invalid {source : Source} {before after : List (List UInt8)} {line : List UInt8}
    (hlines : wholeLines source.pending = before ++ line :: after)
    (hbefore : ∀ other ∈ before, Passes other) (hline : text? line = none) :
    source.script.lines = before.filterMap text? ∧ source.script.close = .failed invalidText ∧
      source.unread = (join (before ++ [line])).length + source.script.rest.unread :=
  script_of_stop hlines hbefore fun _ _ hnext hmem => script_of_text?_none hnext hmem hline

theorem script_of_failure {source : Source} {message : String} {hidden : Nat}
    (hlines : ∀ line ∈ wholeLines source.pending, Passes line)
    (hfailure : source.ending = .failure message hidden) :
    source.script.lines = (wholeLines source.pending).filterMap text? ∧
      source.script.close = .failed message ∧ source.script.rest.unread = hidden := by
  obtain ⟨next, hpending, hending, hafter, hscript⟩ :=
    script_of_wholeLines (List.append_nil _).symm hlines
  obtain ⟨last, hread, hlast, hclose⟩ :=
    readLine_of_failure (wholeLines_eq_nil_iff.mp hafter) (hending.trans hfailure)
  rw [hscript, script_of_failed hread]
  refine ⟨List.append_nil _, rfl, ?_⟩
  rw [unread, hclose, hending, hfailure, hlast]
  exact Nat.zero_add _

/-! ## What is seen of failing input -/

section Shows

variable {source : Source} {bytes : List UInt8} {place : Nat} {message : String}

theorem Shows.of_lt (h : source.Shows bytes (some (place, message))) (hplace : bytes.length < place) :
    source.Shows bytes none := by
  rw [Shows, if_neg (Nat.not_le.mpr hplace)] at h
  exact h

theorem Shows.of_le (h : source.Shows bytes (some (place, message))) (hplace : place ≤ bytes.length) :
    wholeLines source.pending = wholeLines (bytes.take place) ∧
      source.ending = .failure message (bytes.length - place) := by
  rw [Shows, if_pos hplace] at h
  exact ⟨congrArg wholeLines h.1, h.2⟩

/-- Before the failure, and before the end if there is no failure, the same lines are seen. -/
theorem Shows.exists_wholeLines_eq (h : source.Shows bytes none) (place : Nat) :
    ∃ more, wholeLines source.pending = wholeLines (bytes.take place) ++ more := by
  obtain ⟨more, hmore⟩ := wholeLines_prefix_append (bytes.take place) (bytes.drop place)
  refine ⟨more, ?_⟩
  rw [hmore, List.take_append_drop, h.1]

/-- Up to the exit command, a failure behind it makes no difference. -/
theorem Shows.script_of_exits {other : Source} (h : source.Shows bytes (some (place, message)))
    (hother : other.Shows bytes none) (hplace : place ≤ bytes.length)
    (hexits : Exits (wholeLines (bytes.take place))) :
    source.script.close = .exit ∧ other.script.close = .exit ∧
      source.script.lines = other.script.lines ∧
      source.script.rest.unread = other.script.rest.unread := by
  obtain ⟨before, line, after, hlines, hline, hbefore⟩ := hexits.first
  obtain ⟨more, hmore⟩ := hother.exists_wholeLines_eq place
  have hotherLines : wholeLines other.pending = before ++ line :: (after ++ more) := by
    rw [hmore, hlines, List.append_assoc, List.cons_append]
  obtain ⟨hfirst, hclose, hunread⟩ :=
    script_of_exit_command ((h.of_le hplace).1.trans hlines) hbefore hline
  obtain ⟨hfirst', hclose', hunread'⟩ := script_of_exit_command hotherLines hbefore hline
  refine ⟨hclose, hclose', hfirst.trans hfirst'.symm, ?_⟩
  rw [h.unread_eq] at hunread
  rw [hother.unread_eq] at hunread'
  omega

theorem Shows.script_of_invalid (h : source.Shows bytes (some (place, message)))
    (hplace : place ≤ bytes.length) (hexits : ¬ Exits (wholeLines (bytes.take place)))
    {before after : List (List UInt8)} {line : List UInt8}
    (hlines : wholeLines (bytes.take place) = before ++ line :: after)
    (hvalid : ∀ other ∈ before, (text? other).isSome) (hline : text? line = none) :
    source.script.lines = before.filterMap text? ∧ source.script.close = .failed invalidText ∧
      (join (before ++ [line])).length + source.script.rest.unread = bytes.length := by
  obtain ⟨hfirst, hclose, hunread⟩ := Source.script_of_invalid ((h.of_le hplace).1.trans hlines)
    (passes_of_not_exits hexits hlines hvalid) hline
  exact ⟨hfirst, hclose, hunread.symm.trans h.unread_eq⟩

theorem Shows.script_of_failure (h : source.Shows bytes (some (place, message)))
    (hplace : place ≤ bytes.length) (hexits : ¬ Exits (wholeLines (bytes.take place)))
    (hvalid : ∀ line ∈ wholeLines (bytes.take place), (text? line).isSome) :
    source.script.lines = (wholeLines (bytes.take place)).filterMap text? ∧
      source.script.close = .failed message ∧
      source.script.rest.unread = bytes.length - place := by
  obtain ⟨hlines, hfailure⟩ := h.of_le hplace
  have hpass := passes_of_not_exits hexits (List.append_nil _).symm hvalid
  rw [← hlines] at hpass ⊢
  exact Source.script_of_failure hpass hfailure

end Shows

end Source

namespace Session

open Sink Source

variable {σ : Type} [Sink σ]

/-- A session has answered these lines, and asked for one more, when it came to its end. -/
def EndsAfter (metered : Metered σ none) (session last : Session σ)
    (lines : List (List UInt8)) : Prop :=
  last.table = session.table.after (lines.filterMap text?) ∧
    metered.written last.sink = metered.written session.sink ++
      Utf8.encode (session.table.dialogue (lines.filterMap text?))

/-- Two sessions came to the same end. -/
def EndAlike (metered : Metered σ none) (one other : Session σ × Except Fault Unit) : Prop :=
  one.2 = other.2 ∧ one.1.table = other.1.table ∧
    metered.written one.1.sink = metered.written other.1.sink ∧
    one.1.source.unread = other.1.source.unread

theorem run_of_close_failed (metered : Metered σ none) (session : Session σ)
    (htable : session.table.Reachable) (hsink : metered.Covers session.sink)
    {lines : List (List UInt8)} (hlines : session.source.script.lines = lines.filterMap text?)
    {message : String} (hclose : session.source.script.close = .failed message) :
    session.run.2 = .error (.stream message) ∧
      session.run.1.source.unread = session.source.script.rest.unread ∧
      EndsAfter metered session session.run.1 lines := by
  obtain ⟨houtcome, hlast, hsource, hwritten⟩ :=
    run_of_unlimited metered session htable.sound hsink hlines
  rw [houtcome, hsource, Script.outcome, hclose]
  exact ⟨rfl, rfl, hlast, hwritten⟩

/-- What a session leads to is known from its script. -/
theorem endAlike_of_script (metered : Metered σ none) {table : Table} {sink : σ}
    (htable : table.Reachable) (hsink : metered.Covers sink) {one other : Source}
    (hlines : one.script.lines = other.script.lines)
    (hclose : one.script.close = other.script.close)
    (hunread : one.script.rest.unread = other.script.rest.unread) :
    EndAlike metered (run { table, source := one, sink }) (run { table, source := other, sink }) := by
  obtain ⟨houtcome, hlast, hsource, hwritten⟩ :=
    run_of_unlimited metered { table, source := one, sink } htable.sound hsink hlines
  obtain ⟨houtcome', hlast', hsource', hwritten'⟩ :=
    run_of_unlimited metered { table, source := other, sink } htable.sound hsink rfl
  refine ⟨?_, hlast.trans hlast'.symm, hwritten.trans hwritten'.symm, ?_⟩
  · rw [houtcome, houtcome', Script.outcome, Script.outcome, hclose]
  · rw [hsource, hsource']
    exact hunread

theorem run_of_close_exit (metered : Metered σ none) (session : Session σ)
    (htable : session.table.Reachable) (hsink : metered.Covers session.sink)
    (hclose : session.source.script.close = .exit) : session.run.2 = .ok () := by
  rw [(run_of_unlimited metered session htable.sound hsink rfl).1, Script.outcome, hclose]

/-- A session on input that fails at a place ends in one of three ways, depending on the lines that
are whole before that place. At the exit command, with only valid lines before it, the failure
makes no difference. At a line that is not valid, and at the failure itself, the session has
answered the lines before and no part of any other. -/
theorem run_of_failing_input (metered : Metered σ none) (table : Table) (sink : σ)
    (failing calm : Source) (bytes : List UInt8) (place : Nat) (message : String)
    (htable : table.Reachable) (hsink : metered.Covers sink)
    (hfailing : failing.Shows bytes (some (place, message))) (hcalm : calm.Shows bytes none) :
    let start : Session σ := { table, source := failing, sink }
    let whole := run { table, source := calm, sink }
    let lines := wholeLines (bytes.take place)
    (bytes.length < place → EndAlike metered start.run whole) ∧
    (place ≤ bytes.length → Exits lines → start.run.2 = .ok () ∧ EndAlike metered start.run whole) ∧
    (place ≤ bytes.length → ¬ Exits lines → ∀ before line after, lines = before ++ line :: after →
      (∀ other ∈ before, (text? other).isSome) → text? line = none →
      start.run.2 = .error (.stream invalidText) ∧
        (join (before ++ [line])).length + start.run.1.source.unread = bytes.length ∧
        EndsAfter metered start start.run.1 before) ∧
    (place ≤ bytes.length → ¬ Exits lines → (∀ line ∈ lines, (text? line).isSome) →
      start.run.2 = .error (.stream message) ∧
        start.run.1.source.unread = bytes.length - place ∧
        EndsAfter metered start start.run.1 lines) := by
  intro start whole lines
  refine ⟨?_, ?_, ?_, ?_⟩
  · intro hplace
    have hcomplete := hfailing.of_lt hplace
    have halike : failing.Alike calm :=
      ⟨hcomplete.1.trans hcalm.1.symm, hcomplete.2.trans hcalm.2.symm⟩
    obtain ⟨hlines, hclose, hrest⟩ := halike.script
    apply endAlike_of_script metered htable hsink hlines hclose
    rw [unread, unread, hrest.1, hrest.2]
  · intro hplace hexits
    obtain ⟨hclose, hcalmClose, hlines, hunread⟩ := hfailing.script_of_exits hcalm hplace hexits
    exact ⟨run_of_close_exit metered start htable hsink hclose,
      endAlike_of_script metered htable hsink hlines (hclose.trans hcalmClose.symm) hunread⟩
  · intro hplace hexits before line after hlines hvalid hline
    obtain ⟨hbefore, hclose, hunread⟩ :=
      hfailing.script_of_invalid hplace hexits hlines hvalid hline
    obtain ⟨houtcome, hrest, hends⟩ :=
      run_of_close_failed metered start htable hsink hbefore hclose
    exact ⟨houtcome, by rw [hrest, hunread], hends⟩
  · intro hplace hexits hvalid
    obtain ⟨hlines, hclose, hunread⟩ := hfailing.script_of_failure hplace hexits hvalid
    obtain ⟨houtcome, hrest, hends⟩ := run_of_close_failed metered start htable hsink hlines hclose
    exact ⟨houtcome, hrest.trans hunread, hends⟩

/-- The input breaks off in an insertion, and what is left of it would be one too. -/
theorem run_of_failing_input_in_insertion :
    (recorded (Utf8.encode "insert 1 ann a@b\ninsert 2 bob b@c\n") (some (31, "broken")) {}).run.2 =
      .error (.stream "broken") ∧
    (recorded (Utf8.encode "insert 1 ann a@b\ninsert 2 bob b@c\n") (some (31, "broken"))
      {}).run.1.source.unread = 3 ∧
    (recorded (Utf8.encode "insert 1 ann a@b\ninsert 2 bob b@c\n") (some (31, "broken"))
      {}).run.1.sink.written.toList = Utf8.encode "db > Executed.\ndb > " ∧
    (recorded (Utf8.encode "insert 1 ann a@b\ninsert 2 bob b@c\n") (some (31, "broken"))
      {}).run.1.table.rows = .ok [⟨1, "ann", "a@b"⟩] := by
  obtain ⟨-, -, -, hfailure⟩ :=
    run_of_failing_input (Recorder.metered {} (Limits.allowance_eq_none rfl) rfl) .empty {}
      (.ofBytes (Utf8.encode "insert 1 ann a@b\ninsert 2 bob b@c\n") none (some (31, "broken")))
      (.ofBytes (Utf8.encode "insert 1 ann a@b\ninsert 2 bob b@c\n") none none) _ 31 "broken"
      .empty rfl (shows_ofBytes _ none _) (shows_ofBytes _ none none)
  have hlines : wholeLines ((Utf8.encode "insert 1 ann a@b\ninsert 2 bob b@c\n").take 31) =
      [Utf8.encode "insert 1 ann a@b"] := by decide +kernel
  have hlength : (Utf8.encode "insert 1 ann a@b\ninsert 2 bob b@c\n").length = 34 := by
    decide +kernel
  have htext : text? (Utf8.encode "insert 1 ann a@b") = some "insert 1 ann a@b" := by
    rw [text?_encode]
    decide +kernel
  have hpasses : ∀ line ∈ [Utf8.encode "insert 1 ann a@b"], Passes line := by
    intro line hline
    rw [List.mem_singleton.mp hline]
    exact ⟨_, htext, by decide⟩
  have hanswer : Ledger.answer [] "insert 1 ann a@b" =
      some ([⟨1, "ann", "a@b"⟩], "Executed.\n") := by decide +kernel
  obtain ⟨hrows, hshown⟩ := Table.stores_empty.respond_of_answer hanswer
  simp only [hlines, hlength] at hfailure
  obtain ⟨houtcome, hunread, htable, hwritten⟩ :=
    hfailure (by decide) (not_exits_of_passes hpasses) (by simp [htext])
  have hanswered : [Utf8.encode "insert 1 ann a@b"].filterMap text? = ["insert 1 ann a@b"] := by
    rw [List.filterMap_cons_some htext, List.filterMap_nil]
  have hdialogue : Table.empty.dialogue ["insert 1 ann a@b"] = "db > Executed.\ndb > " := by
    rw [Table.dialogue_cons, hshown]
    decide
  rw [hanswered] at htable hwritten
  rw [hdialogue, Recorder.written_metered, Recorder.written_metered] at hwritten
  exact ⟨houtcome, hunread, hwritten, (congrArg Table.rows htable).trans hrows⟩

end Session

end RowStore
