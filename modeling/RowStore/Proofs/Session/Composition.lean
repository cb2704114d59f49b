import Mathlib.Data.List.TakeWhile
import RowStore.Proofs.Session.InputFailure
import RowStore.Proofs.Session.Refinement

/-! # Sessions one after the other

Between two lines nothing of a session is left but its table. So an input that
is cut behind a newline may be read in two sessions instead of one: both ways
lead to the same end. Of the output, only the prompt is missing at which the
first of the two found its input complete.
-/

namespace RowStore

open Text

namespace Ledger

/-- The end of the text is the end of a line. -/
def EndsLine (text : String) : Prop :=
  text = "" ∨ text.toList.getLast? = some '\n'

/-- Such a text is a line and a text of the same kind, if it is not empty. -/
theorem EndsLine.eq_empty_or_exists_line {text : String} (h : EndsLine text) :
    text = "" ∨ ∃ before after, text.toList = before ++ '\n' :: after ∧ '\n' ∉ before ∧
      EndsLine (String.ofList after) := by
  refine h.imp_right ?_
  intro hlast
  obtain ⟨before, after, htext, hbefore⟩ :=
    List.eq_append_cons_of_mem (List.mem_of_getLast? hlast)
  refine ⟨before, after, htext, hbefore, ?_⟩
  by_cases hafter : after = []
  · exact Or.inl (congrArg String.ofList hafter)
  · right
    rwa [htext, List.getLast?_append, List.getLast?_cons_of_ne_nil hafter,
      List.getLast?_eq_some_getLast hafter, Option.some_or,
      ← List.getLast?_eq_some_getLast hafter, ← String.toList_ofList (l := after)] at hlast

theorem answered_of_ne_exitCommand {lines : List String}
    (h : ∀ line ∈ lines, Blank.trim line ≠ Response.exitCommand) :
    answered lines = lines.map Blank.trim := by
  rw [answered, List.takeWhile_eq_self_iff]
  intro text htext
  obtain ⟨line, hline, rfl⟩ := List.mem_map.mp htext
  simpa using h line hline

end Ledger

namespace Source

theorem Alike.unread_eq {source other : Source} (h : source.Alike other) :
    source.unread = other.unread := by
  rw [unread, unread, h.1, h.2]

/-- The lines of a text in front of a source come first in the script, as long as none is the exit
command. From there on it is the script of the source alone. -/
theorem script_of_encode_append {source latter : Source} {text : String}
    (hpending : source.pending = Utf8.encode text ++ latter.pending)
    (hending : source.ending = latter.ending) (hend : Ledger.EndsLine text)
    (hlines : ∀ line ∈ Ledger.lines text, Blank.trim line ≠ Response.exitCommand) :
    source.script.lines = (Ledger.lines text).map Blank.trim ++ latter.script.lines ∧
      source.script.close = latter.script.close ∧
      source.script.rest.Alike latter.script.rest := by
  induction hsize : text.toList.length using Nat.strongRecOn generalizing source text with
  | ind size ih =>
      subst hsize
      rcases hend.eq_empty_or_exists_line with rfl | ⟨before, after, htext, hbefore, hafter⟩
      · exact Alike.script ⟨hpending, hending⟩
      · rw [encode_of_newline htext, List.append_assoc, List.cons_append] at hpending
        rw [Ledger.lines_of_newline htext hbefore] at hlines ⊢
        have hline : newline ∉ Utf8.encode (String.ofList before) := by
          rwa [Utf8.newline_mem_encode_iff, String.toList_ofList]
        obtain ⟨next, hnext, hclose, hscript⟩ :=
          script_of_text? hpending hline (text?_encode _) (hlines _ List.mem_cons_self)
        have hshorter : (String.ofList after).toList.length < text.toList.length := by
          rw [htext, String.toList_ofList, List.length_append, List.length_cons]
          omega
        obtain ⟨hlater, hrest⟩ := ih _ hshorter hnext (hclose.trans hending) hafter
          (fun line hmem => hlines line (List.mem_cons_of_mem _ hmem)) rfl
        rw [hscript, List.map_cons]
        exact ⟨congrArg (Blank.trim (String.ofList before) :: ·) hlater, hrest⟩

/-- Bytes in front of a source move its failure back. -/
theorem Shows.append {source latter : Source} {before bytes : List UInt8}
    {failure : Option (Nat × String)}
    (h : source.Shows (before ++ bytes)
      (failure.map fun (place, message) => (before.length + place, message)))
    (hlatter : latter.Shows bytes failure) :
    source.pending = before ++ latter.pending ∧ source.ending = latter.ending := by
  match failure, h, hlatter with
  | none, h, hlatter => exact ⟨h.1.trans (congrArg _ hlatter.1.symm), h.2.trans hlatter.2.symm⟩
  | some (place, message), h, hlatter =>
      rw [Option.map_some, Shows, List.length_append] at h
      rw [Shows] at hlatter
      split at hlatter
      next hplace =>
        rw [if_pos (Nat.add_le_add_left hplace _), List.take_length_add_append,
          Nat.add_sub_add_left] at h
        exact ⟨h.1.trans (congrArg _ hlatter.1.symm), h.2.trans hlatter.2.symm⟩
      next hplace =>
        rw [if_neg fun hle => hplace (Nat.le_of_add_le_add_left hle)] at h
        exact ⟨h.1.trans (congrArg _ hlatter.1.symm), h.2.trans hlatter.2.symm⟩

end Source

namespace Session

open Sink

variable {σ : Type} [Sink σ]

/-- A session on a text that ends with a line, and a session on other bytes after it, come to the
end of one session on the text and these bytes. Its output is theirs, one behind the other, but for
the last prompt of the first. -/
theorem run_append (metered : Metered σ none) (table : Table) (text : String) (bytes : List UInt8)
    (failure : Option (Nat × String)) (former latter joint : Source) (sink sink' sink'' : σ)
    (htable : table.Reachable) (hend : Ledger.EndsLine text)
    (hlines : ∀ line ∈ Ledger.lines text, Blank.trim line ≠ Response.exitCommand)
    (hformer : former.Shows (Utf8.encode text) none) (hlatter : latter.Shows bytes failure)
    (hjoint : joint.Shows (Utf8.encode text ++ bytes)
      (failure.map fun (place, message) => ((Utf8.encode text).length + place, message)))
    (hsink : metered.Covers sink) (hsink' : metered.Covers sink')
    (hsink'' : metered.Covers sink'') :
    let first := run { table, source := former, sink }
    let second := run { table := first.1.table, source := latter, sink := sink' }
    let whole := run { table, source := joint, sink := sink'' }
    first.2 = .ok () ∧ whole.1.table = second.1.table ∧ whole.2 = second.2 ∧
      whole.1.source.unread = second.1.source.unread ∧
      ∃ shown more, metered.written first.1.sink =
          metered.written sink ++ (shown ++ Utf8.encode prompt) ∧
        metered.written second.1.sink = metered.written sink' ++ more ∧
        metered.written whole.1.sink = metered.written sink'' ++ (shown ++ more) := by
  intro first second whole
  have hformerScript : former.script.lines = (Ledger.lines text).map Blank.trim :=
    (Source.script_of_encode hformer).1.trans (Ledger.answered_of_ne_exitCommand hlines)
  obtain ⟨hpending, hending⟩ := hjoint.append hlatter
  obtain ⟨hjointScript, hclose, hrest⟩ :=
    Source.script_of_encode_append hpending hending hend hlines
  obtain ⟨hfirst, hfirstTable, -, hfirstWritten⟩ :=
    run_of_unlimited metered { table, source := former, sink } htable.sound hsink hformerScript
  obtain ⟨hsecond, hsecondTable, hsecondSource, hsecondWritten⟩ :=
    run_of_unlimited metered { table := first.1.table, source := latter, sink := sink' }
      htable.run.sound hsink' rfl
  obtain ⟨hwhole, hwholeTable, hwholeSource, hwholeWritten⟩ :=
    run_of_unlimited metered { table, source := joint, sink := sink'' } htable.sound hsink''
      hjointScript
  -- The second session begins with the table that the joint one has at the cut.
  have hcut : first.1.table = table.after ((Ledger.lines text).map Blank.trim) := hfirstTable
  rw [Table.after_append, ← hcut] at hwholeTable
  rw [Table.dialogue_append, ← hcut, Utf8.encode_append] at hwholeWritten
  rw [Table.dialogue, Utf8.encode_append] at hfirstWritten
  refine ⟨hfirst.trans (Source.script_of_encode hformer).2, hwholeTable.trans hsecondTable.symm,
    ?_, ?_, _, _, hfirstWritten, hsecondWritten, hwholeWritten⟩
  · rw [hwhole, hsecond, Script.outcome, Script.outcome, hclose]
  · rw [hwholeSource, hsecondSource]
    exact hrest.unread_eq

/-- The second input breaks off in its second line, so the joint one breaks off in its third. -/
theorem run_append_of_broken_second :
    let first : Session Recorder × Except Fault Unit :=
      run { table := .empty
            source := .ofBytes (Utf8.encode "insert 1 ann a@b\n") none none
            sink := {} }
    let second : Session Recorder × Except Fault Unit :=
      run { table := first.1.table
            source := .ofBytes (Utf8.encode "select\ninsert 2") none (some (9, "broken"))
            sink := {} }
    let whole : Session Recorder × Except Fault Unit :=
      run { table := .empty
            source := .ofBytes
              (Utf8.encode "insert 1 ann a@b\n" ++ Utf8.encode "select\ninsert 2") none
              (some (26, "broken"))
            sink := {} }
    whole.1.table = second.1.table ∧ whole.2 = second.2 ∧
      whole.1.source.unread = second.1.source.unread := by
  have hlines : ∀ line ∈ Ledger.lines "insert 1 ann a@b\n",
      Blank.trim line ≠ Response.exitCommand := by decide +kernel
  have hlength : (Utf8.encode "insert 1 ann a@b\n").length = 17 := by decide +kernel
  have hjoint : Source.Shows
      (.ofBytes (Utf8.encode "insert 1 ann a@b\n" ++ Utf8.encode "select\ninsert 2") none
        (some (26, "broken")))
      (Utf8.encode "insert 1 ann a@b\n" ++ Utf8.encode "select\ninsert 2")
      ((some (9, "broken")).map fun (place, message) =>
        ((Utf8.encode "insert 1 ann a@b\n").length + place, message)) := by
    rw [Option.map_some, hlength]
    exact Source.shows_ofBytes _ none _
  obtain ⟨-, htable, houtcome, hunread, -⟩ :=
    run_append (Recorder.metered {} (Limits.allowance_eq_none rfl) rfl) .empty
      "insert 1 ann a@b\n" (Utf8.encode "select\ninsert 2") (some (9, "broken")) _ _ _ {} {} {}
      .empty (Or.inr (by decide)) hlines (Source.shows_ofBytes _ none none)
      (Source.shows_ofBytes _ none _) hjoint rfl rfl rfl
  exact ⟨htable, houtcome, hunread⟩

end Session

end RowStore
