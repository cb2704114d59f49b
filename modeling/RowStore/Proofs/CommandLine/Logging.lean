import RowStore.CommandLine
import RowStore.Proofs.Session.Reporting

/-! # The log of the program

The arguments and the setting decide what is logged and nothing else. What is
written to the standard output, and whether the program fails, is a matter of
the input alone: it fails at a line that is not valid, unless it was told to
exit before that. The log shows what the session reported, as far as it was asked
for, and last of all why the program failed.
-/

namespace RowStore

open Text

/-! ## What is asked for -/

/-- Arguments that ask for a session, and how often they ask for more detail. -/
inductive Invocation.Asks : List String → Nat → Prop
  | nil : Asks [] 0
  | stop : Asks ["--"] 0
  | word {arguments : List String} {detail : Nat} (h : Asks arguments detail) :
      Asks ("--verbose" :: arguments) (detail + 1)
  | letters {arguments : List String} {detail : Nat} (count : Nat) (h : Asks arguments detail) :
      Asks (String.ofList ('-' :: List.replicate (count + 1) 'v') :: arguments)
        (detail + (count + 1))

namespace Verbosity

/-- The name of a verbosity. -/
def levelName : Verbosity → String
  | none => "off"
  | some .error => "error"
  | some .warn => "warn"
  | some .info => "info"
  | some .debug => "debug"
  | some .trace => "trace"

/-- A verbosity is selected by a setting and a level of detail. The setting, a name in letters of
either case, counts only if no detail is asked for. -/
inductive Selected : Verbosity → Option String → Nat → Prop
  | unset : Selected none none 0
  | named {verbosity : Verbosity} {setting : String}
      (h : String.ofList (setting.toList.map Char.toLower) = verbosity.levelName) :
      Selected verbosity (some setting) 0
  | info (setting : Option String) : Selected (some .info) setting 1
  | debug (setting : Option String) : Selected (some .debug) setting 2
  | trace (setting : Option String) (more : Nat) : Selected (some .trace) setting (more + 3)

theorem Selected.ofDetail_eq {setting : Option String} {detail : Nat} {verbosity : Verbosity}
    (h : verbosity.Selected setting detail) : ofDetail setting detail = verbosity := by
  cases h with
  | named h =>
      rw [ofDetail, Option.bind_some, ofSetting, h]
      match verbosity with
      | none => decide
      | some severity => cases severity <;> decide
  | _ => rfl

end Verbosity

namespace Invocation

theorem ofLetters_replicate (argument : String) (detail count : Nat) :
    ofLetters argument detail (List.replicate count 'v') = .ok (detail + count) := by
  induction count generalizing detail with
  | zero => rfl
  | succ count ih =>
      rw [List.replicate_succ, ofLetters, ih, Nat.add_assoc, Nat.add_comm 1]

/-- An argument of letters is none of the words. -/
theorem ofList_dash_ne {letters : List Char} {word : String}
    (hword : word.toList.tail.head? = some '-') :
    String.ofList ('-' :: 'v' :: letters) ≠ word := by
  rintro rfl
  rw [String.toList_ofList] at hword
  cases hword

theorem ofArgument_letters (detail count : Nat) :
    ofArgument (String.ofList ('-' :: List.replicate (count + 1) 'v')) detail =
      .ok (detail + (count + 1)) := by
  rw [ofArgument, List.replicate_succ, if_neg (ofList_dash_ne (by decide)),
    if_neg (ofList_dash_ne (by decide)), if_neg (ofList_dash_ne (by decide))]
  simp only [String.toList_ofList]
  rw [if_neg (by decide), ← List.replicate_succ, ofLetters_replicate]

theorem ofArgumentsFrom_cons {argument : String} {start detail : Nat} (arguments : List String)
    (hargument : argument ≠ "--") (h : ofArgument argument start = .ok detail) :
    ofArgumentsFrom start (argument :: arguments) = ofArgumentsFrom detail arguments := by
  rw [ofArgumentsFrom.eq_def]
  simp only [if_neg hargument, h]

theorem Asks.ofArgumentsFrom_eq {arguments : List String} {detail : Nat}
    (h : Asks arguments detail) (start : Nat) :
    ofArgumentsFrom start arguments = .serve (start + detail) := by
  induction h generalizing start with
  | nil => rfl
  | stop => rfl
  | word h ih =>
      rw [ofArgumentsFrom_cons _ (by decide) (if_pos rfl), ih, Nat.add_assoc, Nat.add_comm 1]
  | letters count h ih =>
      have hdash : String.ofList ('-' :: List.replicate (count + 1) 'v') ≠ "--" :=
        ofList_dash_ne (by decide)
      rw [ofArgumentsFrom_cons _ hdash (ofArgument_letters _ _), ih, Nat.add_assoc,
        Nat.add_comm (count + 1)]

theorem Asks.ofArguments_eq {arguments : List String} {detail : Nat} (h : Asks arguments detail) :
    ofArguments arguments = .serve detail := by
  rw [ofArguments, h.ofArgumentsFrom_eq, Nat.zero_add]

end Invocation

/-! ## What is shown -/

/-- Whether an event tells of a statement that was parsed. -/
def Event.isPrepared : Event → Bool
  | prepared _ => true
  | _ => false

namespace Verbosity

/-- The severities that are shown: the selected one and those that are more severe. -/
def levels : Verbosity → List Severity
  | none => []
  | some .error => [.error]
  | some .warn => [.error, .warn]
  | some .info => [.error, .warn, .info]
  | some .debug => [.error, .warn, .info, .debug]
  | some .trace => [.error, .warn, .info, .debug, .trace]

/-- The rank of a severity counts the levels that are shown with it. -/
theorem mem_levels_iff {severity least : Severity} :
    severity ∈ levels (some least) ↔ severity.rank ≤ least.rank := by
  cases least <;> cases severity <;> decide

theorem filter_eq_filter_levels (verbosity : Verbosity) (events : List Event) :
    verbosity.filter events = events.filter (·.severity ∈ verbosity.levels) := by
  apply List.filter_congr
  intro event _
  cases verbosity with
  | none => rfl
  | some least => exact decide_eq_decide.mpr mem_levels_iff.symm

theorem filter_levels_trace (events : List Event) :
    events.filter (·.severity ∈ levels (some .trace)) = events := by
  rw [← filter_eq_filter_levels, filter_trace]

theorem filter_levels_debug (events : List Event) :
    events.filter (·.severity ∈ levels (some .debug)) = events.filter (!·.isPrepared) := by
  rw [← filter_eq_filter_levels, filter_debug]
  apply List.filter_congr
  intro event _
  cases event <;> rfl

/-- Since no line is reported as an error, the other levels show nothing of a session. -/
theorem filter_levels_reports {verbosity : Verbosity} (htrace : verbosity ≠ some .trace)
    (hdebug : verbosity ≠ some .debug) (table : Table) (lines : List (Option String)) :
    (table.reports lines).filter (·.severity ∈ verbosity.levels) = [] := by
  rw [← filter_eq_filter_levels]
  exact filter_eq_nil htrace hdebug (table.all_reports lines)

end Verbosity

/-! ## What is left behind -/

namespace Session

open Sink Source

/-- On a new table, any session that reads these bytes and whose output never fails comes to the
same end, shows the same and reports the same. -/
theorem run_of_bytes {σ : Type} [Sink σ] (metered : Metered σ none) (sink : σ)
    (hsink : metered.Covers sink) {source : Source} {bytes : List UInt8}
    (hsource : source.Shows bytes none) :
    let session : Session σ := { table := .empty, source, sink }
    let texts := (pieces newline bytes).map text?
    (Breaks texts ∧ session.run.2 = .error (.stream invalidText) ∨
      ¬ Breaks texts ∧ session.run.2 = .ok ()) ∧
    metered.written session.run.1.sink =
      metered.written sink ++ Utf8.encode (Table.empty.dialogue (heed texts).1) ∧
    session.run.1.events.toList =
      Table.empty.reports ((heed texts).1.map some ++ (heed texts).2.heard) := by
  intro session texts
  obtain ⟨hlines, hclose⟩ := hsource.script_eq
  obtain ⟨houtcome, -, -, hwritten⟩ :=
    run_of_unlimited metered session ⟨[], Table.stores_empty⟩ hsink hlines
  have hevents := events_of_unlimited metered session Table.packs_empty hsink
  rw [Script.heard, hlines, hclose] at hevents
  rw [houtcome]
  exact ⟨hsource.outcome_script, hwritten, hevents⟩

end Session

namespace CommandLine

open Sink

/-- The log lines of a fault end with the fault itself, which is shown at any verbosity. -/
theorem faultLines_invalidText (verbosity : Verbosity) :
    faultLines verbosity (.stream Source.invalidText) =
      (if verbosity = none then []
        else ["ERROR db: repl aborted err=I/O error: stream did not contain valid UTF-8"]) ++
      ["error: I/O error: stream did not contain valid UTF-8"] := by
  match verbosity with
  | none => decide
  | some severity => cases severity <;> decide

theorem serve_of_ok {verbosity : Verbosity} {source : Source} {last : Session Recorder}
    (h : Session.run { table := .empty, source, sink := {} } = (last, .ok ())) :
    serve verbosity source =
      { code := success
        output := last.sink.written.toList
        log := logLines verbosity last.events.toList } := by
  simp only [serve, h]

theorem serve_of_error {verbosity : Verbosity} {source : Source} {last : Session Recorder}
    {fault : Fault} (h : Session.run { table := .empty, source, sink := {} } = (last, .error fault)) :
    serve verbosity source =
      { code := failure
        output := last.sink.written.toList
        log := logLines verbosity last.events.toList ++ faultLines verbosity fault } := by
  simp only [serve, h]

/-- Serving an input leaves the output and the events of any other session on it whose output never
fails. -/
theorem serve_eq {σ : Type} [Sink σ] (metered : Metered σ none) (verbosity : Verbosity)
    {input : List UInt8} {source other : Source} {sink : σ} (hsource : source.Shows input none)
    (hother : other.Shows input none) (hsink : metered.Covers sink) :
    let session : Session σ := { table := .empty, source := other, sink }
    let result := serve verbosity source
    let texts := (pieces Source.newline input).map Source.text?
    metered.written session.run.1.sink = metered.written sink ++ result.output ∧
    (Source.Breaks texts → result.code = 1 ∧
      result.log = logLines verbosity session.run.1.events.toList ++
        faultLines verbosity (.stream Source.invalidText)) ∧
    (¬ Source.Breaks texts → result.code = 0 ∧
      result.log = logLines verbosity session.run.1.events.toList) := by
  intro session result texts
  obtain ⟨-, hwritten, hevents⟩ := Session.run_of_bytes metered sink hsink hother
  obtain ⟨houtcome, hserved, hreports⟩ :=
    Session.run_of_bytes (Recorder.metered {} (Limits.allowance_eq_none rfl) rfl) {} rfl hsource
  rw [Recorder.written_metered, Recorder.written_metered] at hserved
  rw [hwritten, hevents]
  rcases houtcome with ⟨hbreaks, hfailed⟩ | ⟨hbreaks, hok⟩
  · have hresult : result = _ := serve_of_error (Prod.ext rfl hfailed)
    rw [hserved, hreports] at hresult
    rw [hresult]
    exact ⟨rfl, fun _ => ⟨rfl, rfl⟩, fun hnot => absurd hbreaks hnot⟩
  · have hresult : result = _ := serve_of_ok (Prod.ext rfl hok)
    rw [hserved, hreports] at hresult
    rw [hresult]
    exact ⟨rfl, fun hbroken => absurd hbroken hbreaks, fun _ => ⟨rfl, rfl⟩⟩

theorem perform_of_asks (setting : Option String) (source : Source) {arguments : List String}
    {detail : Nat} (h : Invocation.Asks arguments detail) :
    perform setting source (Invocation.ofArguments arguments) =
      serve (Verbosity.ofDetail setting detail) source := by
  rw [h.ofArguments_eq, perform]

/-- The log does not disturb a session. Whatever is asked for, the program writes to its standard
output what any session on the input shows, and fails just if a line is not valid and no line before
it is the exit command. Its log is made up of the events of the session at the level that was asked
for and at those that are more severe, and, if it fails, of the reason: as an event, unless nothing is
logged, and at the end as it is. Of the events of the session, the finest level shows all, the one
above it leaves out the prepared statements, and the others show none. -/
theorem log_does_not_disturb {σ : Type} [Sink σ] (metered : Metered σ none)
    (setting : Option String) (arguments : List String) (detail : Nat) (verbosity : Verbosity)
    (input : List UInt8) (source other : Source) (sink : σ)
    (harguments : Invocation.Asks arguments detail)
    (hverbosity : verbosity.Selected setting detail)
    (hsource : source.Shows input none) (hother : other.Shows input none)
    (hsink : metered.Covers sink) :
    let result := perform setting source (Invocation.ofArguments arguments)
    let session : Session σ := { table := .empty, source := other, sink }
    let texts := (pieces Source.newline input).map Source.text?
    let events := session.run.1.events.toList
    let shown := events.filter (·.severity ∈ verbosity.levels)
    let lines := shown.map Event.logLine
    metered.written session.run.1.sink = metered.written sink ++ result.output ∧
    (∀ (setting' : Option String) (arguments' : List String) (detail' : Nat) (source' : Source),
      Invocation.Asks arguments' detail' → source'.Shows input none →
      (perform setting' source' (Invocation.ofArguments arguments')).output = result.output ∧
        (perform setting' source' (Invocation.ofArguments arguments')).code = result.code) ∧
    (result.code = 1 ↔ Source.Breaks texts) ∧
    (result.code = 0 ↔ ¬ Source.Breaks texts) ∧
    (¬ Source.Breaks texts → result.log = lines) ∧
    (Source.Breaks texts → result.log = lines ++
      ((if verbosity = none then []
        else ["ERROR db: repl aborted err=I/O error: stream did not contain valid UTF-8"]) ++
      ["error: I/O error: stream did not contain valid UTF-8"])) ∧
    (verbosity = some .trace → shown = events) ∧
    (verbosity = some .debug → shown = events.filter (!·.isPrepared)) ∧
    (verbosity ≠ some .trace → verbosity ≠ some .debug → shown = []) := by
  intro result session texts events shown lines
  have hlines : logLines verbosity events = lines := by
    rw [logLines, Verbosity.filter_eq_filter_levels]
  have hresult : result = serve verbosity source := by
    rw [← hverbosity.ofDetail_eq]
    exact perform_of_asks setting source harguments
  obtain ⟨hwritten, hfails, hsucceeds⟩ := serve_eq metered verbosity hsource hother hsink
  rw [← hresult] at hwritten hfails hsucceeds
  rw [hlines] at hfails hsucceeds
  refine ⟨hwritten, ?_, ?_, ?_, ?_, ?_, ?_, ?_, ?_⟩
  · intro setting' arguments' detail' source' harguments' hsource'
    rw [perform_of_asks setting' source' harguments']
    obtain ⟨hwritten', hfails', hsucceeds'⟩ :=
      serve_eq metered (Verbosity.ofDetail setting' detail') hsource' hother hsink
    refine ⟨List.append_cancel_left (hwritten'.symm.trans hwritten), ?_⟩
    by_cases hbreaks : Source.Breaks texts
    · exact (hfails' hbreaks).1.trans (hfails hbreaks).1.symm
    · exact (hsucceeds' hbreaks).1.trans (hsucceeds hbreaks).1.symm
  · by_cases hbreaks : Source.Breaks texts
    · exact iff_of_true (hfails hbreaks).1 hbreaks
    · rw [(hsucceeds hbreaks).1]
      exact iff_of_false (by decide) hbreaks
  · by_cases hbreaks : Source.Breaks texts
    · rw [(hfails hbreaks).1]
      exact iff_of_false (by decide) fun hnot => hnot hbreaks
    · exact iff_of_true (hsucceeds hbreaks).1 hbreaks
  · intro hbreaks
    exact (hsucceeds hbreaks).2
  · intro hbreaks
    rw [← faultLines_invalidText]
    exact (hfails hbreaks).2
  · rintro rfl
    exact Verbosity.filter_levels_trace events
  · rintro rfl
    exact Verbosity.filter_levels_debug events
  · intro htrace hdebug
    obtain ⟨-, -, hevents⟩ := Session.run_of_bytes metered sink hsink hother
    have hshown : shown = (Table.empty.reports _).filter (·.severity ∈ verbosity.levels) :=
      congrArg (List.filter _) hevents
    exact hshown.trans (Verbosity.filter_levels_reports htrace hdebug _ _)

/-- The exit command comes too late, behind a line that is not valid. The statement in the first line
is hidden at the level that two letters ask for, and three of them show it; a setting that is too
coarse hides the other line as well. -/
theorem log_does_not_disturb_of_late_exit :
    let input := Utf8.encode "select\n.help\n" ++ 255 :: Utf8.encode "\n.exit\n"
    let result (setting : Option String) (arguments : List String) :=
      perform setting (.ofBytes input none none) (Invocation.ofArguments arguments)
    let aborted := ["ERROR db: repl aborted err=I/O error: stream did not contain valid UTF-8",
      "error: I/O error: stream did not contain valid UTF-8"]
    let failed := "DEBUG db::repl: statement failed err=Unrecognized command '.help' line=\".help\""
    (result (some "off") ["-v", "--verbose", "--"]).code = 1 ∧
    (result (some "off") ["-v", "--verbose", "--"]).output =
      Utf8.encode "db > Executed.\ndb > Unrecognized command '.help'\ndb > " ∧
    (result (some "off") ["-v", "--verbose", "--"]).log = failed :: aborted ∧
    (result none ["-vvv"]).log =
      "TRACE db::statement: prepared statement=Select" :: failed :: aborted ∧
    (result (some "Info") []).log = aborted := by
  intro input result aborted failed
  have htexts : (pieces Source.newline input).map Source.text? =
      [some "select", some ".help", none, some ".exit"] := by decide +kernel
  have hbreaks : Source.Breaks [some "select", some ".help", none, some ".exit"] :=
    ⟨[some "select", some ".help"], [some ".exit"], rfl, by decide⟩
  have hsource : (Source.ofBytes input none none).Shows input none :=
    Source.shows_ofBytes input none none
  let metered := Recorder.metered {} (Limits.allowance_eq_none rfl) rfl
  obtain ⟨-, hwritten, hevents⟩ := Session.run_of_bytes metered {} rfl hsource
  rw [htexts] at hwritten hevents
  -- The three runs differ in what is asked for, and in nothing that is needed of the session.
  have hresult {setting : Option String} {arguments : List String} {detail : Nat}
      {verbosity : Verbosity} (harguments : Invocation.Asks arguments detail)
      (hverbosity : verbosity.Selected setting detail) :
      (result setting arguments).code = 1 ∧
        (result setting arguments).output = Utf8.encode (Table.empty.dialogue ["select", ".help"]) ∧
        (result setting arguments).log =
          ((Table.empty.reports [some "select", some ".help"]).filter
            (·.severity ∈ verbosity.levels)).map Event.logLine ++
          ((if verbosity = none then [] else aborted.take 1) ++ aborted.drop 1) := by
    obtain ⟨houtput, -, hcode, -, -, hlog, -⟩ :=
      log_does_not_disturb metered setting arguments detail verbosity input _ _ {} harguments
        hverbosity hsource hsource rfl
    rw [htexts] at hcode hlog
    rw [hevents] at hlog
    rw [hwritten] at houtput
    exact ⟨hcode.mpr hbreaks, (List.append_cancel_left houtput).symm, hlog hbreaks⟩
  obtain ⟨hcode, houtput, hlog⟩ := hresult (.letters 0 (.word .stop)) (.debug (some "off"))
  obtain ⟨-, -, htrace⟩ := hresult (.letters 2 .nil) (.trace none 0)
  have hnamed : Verbosity.Selected (some .info) (some "Info") 0 := .named (by decide)
  obtain ⟨-, -, hinfo⟩ := hresult .nil hnamed
  refine ⟨hcode, houtput.trans ?_, hlog.trans ?_, htrace.trans ?_, hinfo.trans ?_⟩
  · decide +kernel
  · decide +kernel
  · decide +kernel
  · decide +kernel

end CommandLine

end RowStore
