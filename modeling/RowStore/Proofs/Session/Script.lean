import RowStore.Proofs.Stream.Lines
import RowStore.Session

/-! # What a session reads

Which lines a session answers, and why it ends if its output never fails, is
known from the source alone: neither the table nor the sink has a say in it. The
script of a source says both. It is computed line by line, and this module reads
it off the bytes of the source.
-/

namespace RowStore

open Text

/-- Why a session stops reading. -/
inductive Close where
  /-- The exit command was read. -/
  | exit
  /-- There are no more lines. -/
  | ended
  | failed (message : String)

/-- The lines that a session reads and goes on after, without blanks at their ends, and how the
reading comes to its end. -/
structure Script where
  lines : List String
  close : Close
  /-- The source behind the last reading. -/
  rest : Source

/-- What a session ends with if its output never fails. -/
def Script.outcome (script : Script) : Except Fault Unit :=
  match script.close with
  | .exit => .ok ()
  | .ended => .ok ()
  | .failed message => .error (.stream message)

namespace Source

/-- What a session reads from a source. -/
def script (source : Source) : Script :=
  match _hreading : source.readLine with
  | (.failed message, rest) => { lines := [], close := .failed message, rest }
  | (.ended, rest) => { lines := [], close := .ended, rest }
  | (.line text, rest) =>
      if Blank.trim text = Response.exitCommand then { lines := [], close := .exit, rest }
      else
        let script := rest.script
        { script with lines := Blank.trim text :: script.lines }
termination_by source.pending.length
decreasing_by exact pending_lt_of_line _hreading

theorem script_of_failed {source rest : Source} {message : String}
    (h : source.readLine = (.failed message, rest)) :
    source.script = { lines := [], close := .failed message, rest } := by
  rw [script]
  split
  next hreading => rw [h] at hreading; cases hreading; rfl
  next hreading => rw [h] at hreading; cases hreading
  next hreading => rw [h] at hreading; cases hreading

theorem script_of_ended {source rest : Source} (h : source.readLine = (.ended, rest)) :
    source.script = { lines := [], close := .ended, rest } := by
  rw [script]
  split
  next hreading => rw [h] at hreading; cases hreading
  next hreading => rw [h] at hreading; cases hreading; rfl
  next hreading => rw [h] at hreading; cases hreading

theorem script_of_exit {source rest : Source} {text : String}
    (h : source.readLine = (.line text, rest)) (htext : Blank.trim text = Response.exitCommand) :
    source.script = { lines := [], close := .exit, rest } := by
  rw [script]
  split
  next hreading => rw [h] at hreading; cases hreading
  next hreading => rw [h] at hreading; cases hreading
  next hreading => rw [h] at hreading; cases hreading; rw [if_pos htext]

theorem script_of_line {source rest : Source} {text : String}
    (h : source.readLine = (.line text, rest)) (htext : Blank.trim text ≠ Response.exitCommand) :
    source.script = { rest.script with lines := Blank.trim text :: rest.script.lines } := by
  rw [script]
  split
  next hreading => rw [h] at hreading; cases hreading
  next hreading => rw [h] at hreading; cases hreading
  next hreading => rw [h] at hreading; cases hreading; rw [if_neg htext]

/-- Sources are taken line by line: those whose script is at its close, and those with one more line
in front of another source. -/
theorem lineInduction {motive : Source → Prop}
    (close : ∀ source, source.script.lines = [] → motive source)
    (line : ∀ source text rest, source.readLine = (.line text, rest) →
      Blank.trim text ≠ Response.exitCommand → motive rest → motive source)
    (source : Source) : motive source := by
  match hread : source.readLine with
  | (.failed message, rest) =>
      apply close
      rw [script_of_failed hread]
  | (.ended, rest) =>
      apply close
      rw [script_of_ended hread]
  | (.line text, rest) =>
      by_cases hexit : Blank.trim text = Response.exitCommand
      · apply close
        rw [script_of_exit hread hexit]
      · exact line source text rest hread hexit (lineInduction close line rest)
termination_by source.pending.length
decreasing_by exact pending_lt_of_line hread

/-! ## Scripts from bytes -/

theorem script_of_text? {source : Source} {line rest : List UInt8}
    (hpending : source.pending = line ++ newline :: rest) (hline : newline ∉ line) {text : String}
    (htext : text? line = some text) (hexit : text ≠ Response.exitCommand) :
    ∃ next : Source, next.pending = rest ∧ next.ending = source.ending ∧
      source.script = { next.script with lines := text :: next.script.lines } := by
  obtain ⟨next, hread, hrest, hending⟩ := readLine_of_newline hpending hline
  obtain ⟨raw, hraw, rfl⟩ := text?_eq_some_iff.mp htext
  rw [hraw] at hread
  exact ⟨next, hrest, hending, script_of_line hread hexit⟩

theorem script_of_text?_exit {source : Source} {line rest : List UInt8}
    (hpending : source.pending = line ++ newline :: rest) (hline : newline ∉ line)
    (htext : text? line = some Response.exitCommand) :
    ∃ next : Source, next.pending = rest ∧ next.ending = source.ending ∧
      source.script = { lines := [], close := .exit, rest := next } := by
  obtain ⟨next, hread, hrest, hending⟩ := readLine_of_newline hpending hline
  obtain ⟨raw, hraw, hexit⟩ := text?_eq_some_iff.mp htext
  rw [hraw] at hread
  exact ⟨next, hrest, hending, script_of_exit hread hexit⟩

theorem script_of_text?_none {source : Source} {line rest : List UInt8}
    (hpending : source.pending = line ++ newline :: rest) (hline : newline ∉ line)
    (htext : text? line = none) :
    ∃ next : Source, next.pending = rest ∧ next.ending = source.ending ∧
      source.script = { lines := [], close := .failed invalidText, rest := next } := by
  obtain ⟨next, hread, hrest, hending⟩ := readLine_of_newline hpending hline
  rw [text?_eq_none_iff.mp htext] at hread
  exact ⟨next, hrest, hending, script_of_failed hread⟩

/-- The whole lines at the beginning of a source, as long as they are valid and none is the exit
command, come first in its script; what follows is the script of a source without them. -/
theorem script_of_wholeLines {source : Source} {before after : List (List UInt8)}
    (hlines : wholeLines source.pending = before ++ after)
    (hbefore : ∀ line ∈ before, ∃ text, text? line = some text ∧ text ≠ Response.exitCommand) :
    ∃ next : Source, source.pending = before.flatMap (· ++ [newline]) ++ next.pending ∧
      next.ending = source.ending ∧ wholeLines next.pending = after ∧
      source.script =
        { next.script with lines := before.filterMap text? ++ next.script.lines } := by
  -- Each line is read off the source, which leaves one that begins with the next line.
  induction before generalizing source with
  | nil => exact ⟨source, rfl, rfl, hlines, rfl⟩
  | cons line before ih =>
      obtain ⟨rest, hpending, hline, hrest⟩ := eq_append_of_wholeLines_eq_cons hlines
      obtain ⟨text, htext, hexit⟩ := hbefore line List.mem_cons_self
      obtain ⟨middle, rfl, hmiddle, hscript⟩ := script_of_text? hpending hline htext hexit
      obtain ⟨next, hnext, hending, hafter, hlater⟩ :=
        ih hrest fun line hmem => hbefore line (List.mem_cons_of_mem _ hmem)
      refine ⟨next, ?_, hending.trans hmiddle, hafter, ?_⟩
      · rw [hpending, hnext, List.flatMap_cons]
        simp
      · rw [hscript, hlater, List.filterMap_cons_some htext]
        rfl

/-- The lines that a session answers, if these are the texts of the lines that it reads, and how its
reading comes to an end. A line without a text is not valid. -/
def heed : List (Option String) → List String × Close
  | [] => ([], .ended)
  | none :: _ => ([], .failed invalidText)
  | some text :: texts =>
      if text = Response.exitCommand then ([], .exit)
      else (text :: (heed texts).1, (heed texts).2)

/-- Of these texts of lines, one is missing, since its line is not valid, and the exit command is
not among the ones before it. -/
def Breaks (texts : List (Option String)) : Prop :=
  ∃ before after, texts = before ++ none :: after ∧ some Response.exitCommand ∉ before

theorem breaks_cons_some {text : String} {texts : List (Option String)}
    (hexit : text ≠ Response.exitCommand) : Breaks (some text :: texts) ↔ Breaks texts := by
  constructor
  · rintro ⟨before, after, htexts, hbefore⟩
    cases before with
    | nil => cases htexts
    | cons first before =>
        obtain ⟨-, rfl⟩ := List.cons.inj htexts
        exact ⟨before, after, rfl, fun hmem => hbefore (List.mem_cons_of_mem _ hmem)⟩
  · rintro ⟨before, after, rfl, hbefore⟩
    refine ⟨some text :: before, after, rfl, ?_⟩
    apply List.not_mem_cons_of_ne_of_not_mem _ hbefore
    exact fun h => hexit (Option.some.inj h).symm

theorem not_breaks_cons_exit (texts : List (Option String)) :
    ¬ Breaks (some Response.exitCommand :: texts) := by
  rintro ⟨before, after, htexts, hbefore⟩
  cases before with
  | nil => cases htexts
  | cons first before =>
      obtain ⟨rfl, -⟩ := List.cons.inj htexts
      exact hbefore List.mem_cons_self

/-- The reading fails just if a line is missing before the exit command. -/
theorem close_heed (texts : List (Option String)) :
    Breaks texts ∧ (heed texts).2 = .failed invalidText ∨
      ¬ Breaks texts ∧ ((heed texts).2 = .exit ∨ (heed texts).2 = .ended) := by
  induction texts with
  | nil => exact Or.inr ⟨by simp [Breaks], Or.inr rfl⟩
  | cons text texts ih =>
      cases text with
      | none => exact Or.inl ⟨⟨[], texts, rfl, List.not_mem_nil⟩, rfl⟩
      | some text =>
          rw [heed]
          by_cases hexit : text = Response.exitCommand
          · rw [if_pos hexit, hexit]
            exact Or.inr ⟨not_breaks_cons_exit _, Or.inl rfl⟩
          · rw [if_neg hexit, breaks_cons_some hexit]
            exact ih

theorem script_of_nil {source : Source} (hpending : source.pending = [])
    (hending : source.ending = .complete) :
    source.script.lines = [] ∧ source.script.close = .ended := by
  obtain ⟨next, hread, -, -⟩ := readLine_of_nil hpending hending
  rw [script_of_ended hread]
  exact ⟨rfl, rfl⟩

/-- A last line counts although it has no newline. -/
theorem script_of_tail {source : Source} {tail : List UInt8} (hpending : source.pending = tail)
    (htail : newline ∉ tail) (hne : tail ≠ []) (hending : source.ending = .complete) :
    source.script.lines = (heed [text? tail]).1 ∧ source.script.close = (heed [text? tail]).2 := by
  obtain ⟨next, hread, hnext, hclose⟩ := readLine_of_tail hpending htail hne hending
  cases hraw : Utf8.decode? tail.toArray with
  | none =>
      rw [Reading.ofBytes, hraw] at hread
      rw [script_of_failed hread, text?, hraw]
      exact ⟨rfl, rfl⟩
  | some raw =>
      rw [Reading.ofBytes, hraw] at hread
      rw [text?, hraw, Option.map_some, heed]
      by_cases hexit : Blank.trim raw = Response.exitCommand
      · rw [script_of_exit hread hexit, if_pos hexit]
        exact ⟨rfl, rfl⟩
      · obtain ⟨hlines, hscript⟩ := script_of_nil hnext (hclose.trans hending)
        rw [script_of_line hread hexit, if_neg hexit]
        exact ⟨congrArg (Blank.trim raw :: ·) hlines, hscript⟩

/-- The script of a source without a failure is known from the texts of its lines. -/
theorem Shows.script_eq {source : Source} {bytes : List UInt8} (h : source.Shows bytes none) :
    source.script.lines = (heed ((pieces newline bytes).map text?)).1 ∧
      source.script.close = (heed ((pieces newline bytes).map text?)).2 := by
  obtain ⟨hpending, hending⟩ := h
  induction bytes using pieceInduction newline generalizing source with
  | nil => exact script_of_nil hpending hending
  | tail last hlast hne =>
      rw [pieces_of_not_mem hlast hne]
      exact script_of_tail hpending hlast hne hending
  | piece first rest hfirst ih =>
      rw [pieces_append_cons hfirst, List.map_cons]
      cases htext : text? first with
      | none =>
          obtain ⟨next, -, -, hscript⟩ := script_of_text?_none hpending hfirst htext
          rw [hscript]
          exact ⟨rfl, rfl⟩
      | some text =>
          rw [heed]
          by_cases hexit : text = Response.exitCommand
          · obtain ⟨next, -, -, hscript⟩ :=
              script_of_text?_exit hpending hfirst (hexit ▸ htext)
            rw [hscript, if_pos hexit]
            exact ⟨rfl, rfl⟩
          · obtain ⟨next, hnext, hclose, hscript⟩ := script_of_text? hpending hfirst htext hexit
            obtain ⟨hlines, hrest⟩ := ih hnext (hclose.trans hending)
            rw [hscript, if_neg hexit]
            exact ⟨congrArg (text :: ·) hlines, hrest⟩

/-- A source without a failure leads to a fault just if a line is missing before the exit
command. -/
theorem Shows.outcome_script {source : Source} {bytes : List UInt8} (h : source.Shows bytes none) :
    Breaks ((pieces newline bytes).map text?) ∧
        source.script.outcome = .error (.stream invalidText) ∨
      ¬ Breaks ((pieces newline bytes).map text?) ∧ source.script.outcome = .ok () := by
  obtain ⟨-, hclose⟩ := h.script_eq
  rw [Script.outcome, hclose]
  rcases close_heed ((pieces newline bytes).map text?) with
    ⟨hbreaks, hfailed⟩ | ⟨hbreaks, hended | hended⟩
  · rw [hfailed]
    exact Or.inl ⟨hbreaks, rfl⟩
  · rw [hended]
    exact Or.inr ⟨hbreaks, rfl⟩
  · rw [hended]
    exact Or.inr ⟨hbreaks, rfl⟩

/-- The chunks of a source have no influence on its script, nor on the bytes that it leaves. -/
theorem Alike.script {source other : Source} (h : source.Alike other) :
    source.script.lines = other.script.lines ∧ source.script.close = other.script.close ∧
      source.script.rest.Alike other.script.rest := by
  induction hsize : source.pending.length using Nat.strongRecOn generalizing source other with
  | ind size ih =>
      subst hsize
      obtain ⟨reading, next, next', hread, hread', hnext⟩ := h.readLine
      cases reading with
      | failed message =>
          rw [script_of_failed hread, script_of_failed hread']
          exact ⟨rfl, rfl, hnext⟩
      | ended =>
          rw [script_of_ended hread, script_of_ended hread']
          exact ⟨rfl, rfl, hnext⟩
      | line text =>
          by_cases hexit : Blank.trim text = Response.exitCommand
          · rw [script_of_exit hread hexit, script_of_exit hread' hexit]
            exact ⟨rfl, rfl, hnext⟩
          · rw [script_of_line hread hexit, script_of_line hread' hexit]
            obtain ⟨hlines, hrest⟩ := ih _ (pending_lt_of_line hread) hnext rfl
            exact ⟨congrArg (Blank.trim text :: ·) hlines, hrest⟩

end Source

end RowStore
