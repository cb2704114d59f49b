import RowStore.Proofs.Stream.Metered

/-! # Sinks that are flushed so many times

A steady sink takes all bytes, in portions of its own choice, and succeeds in a
limited number of flushes, or in all. Each successful flush leaves a mark at the
number of bytes that had been taken. Writes leave no marks, so the marks of a
sink tell when it was flushed. What happened between two sinks is said by the
bytes that were taken and the places of the flushes among them.
-/

namespace RowStore.Sink

open Text

/-- A number of flushes that succeed in all, and the message for any more. -/
structure FlushLimit where
  count : Nat
  refusal : String

/-- One more flush succeeds after so many. If there is no limit, it always does. -/
def Flushable (limit : Option FlushLimit) (count : Nat) : Prop :=
  ∀ last ∈ limit, count < last.count

theorem Flushable.mono {limit : Option FlushLimit} {count fewer : Nat} (h : Flushable limit count)
    (hle : fewer ≤ count) : Flushable limit fewer :=
  fun last hlast => Nat.lt_of_le_of_lt hle (h last hlast)

theorem flushable_none (count : Nat) : Flushable none count := by
  intro last hlast
  cases hlast

theorem flushable_some {limit : FlushLimit} {count : Nat} :
    Flushable (some limit) count ↔ count < limit.count := by
  simp [Flushable]

/-- The sinks that take all bytes and fail only to flush, once the limit is reached. -/
structure Steady (σ : Type) [Sink σ] (limit : Option FlushLimit) where
  /-- The sinks that it is about. -/
  Covers : σ → Prop
  /-- The bytes that were taken so far. -/
  written : σ → List UInt8
  /-- The number of bytes that had been taken at each successful flush. -/
  marks : σ → List Nat
  offer_taken {sink : σ} {bytes : List UInt8} : Covers sink → bytes ≠ [] →
    ∃ next count, offer sink bytes = (next, .taken count) ∧ 0 < count ∧ count ≤ bytes.length ∧
      written next = written sink ++ bytes.take count ∧ marks next = marks sink ∧ Covers next
  flush_ok {sink : σ} : Covers sink → Flushable limit (marks sink).length →
    ∃ next, flush sink = (next, .ok ()) ∧ written next = written sink ∧
      marks next = marks sink ++ [(written sink).length] ∧ Covers next
  flush_refused {sink : σ} {last : FlushLimit} : limit = some last → Covers sink →
    last.count ≤ (marks sink).length →
    ∃ next, flush sink = (next, .error last.refusal) ∧ written next = written sink ∧
      marks next = marks sink ∧ Covers next

namespace Steady

variable {σ : Type} [Sink σ] {limit : Option FlushLimit}

/-- On the way from one sink to another, these bytes were taken, and flushed at these places among
them. -/
structure Took (steady : Steady σ limit) (sink next : σ) (bytes : List UInt8) (places : List Nat) :
    Prop where
  covers : steady.Covers next
  written_eq : steady.written next = steady.written sink ++ bytes
  marks_eq : steady.marks next = steady.marks sink ++ places.map ((steady.written sink).length + ·)

variable {steady : Steady σ limit} {sink middle next : σ} {bytes more : List UInt8}
  {places later : List Nat}

theorem Took.refl (hsink : steady.Covers sink) : steady.Took sink sink [] [] :=
  ⟨hsink, (List.append_nil _).symm, (List.append_nil _).symm⟩

/-- The places in what was taken later are counted from the beginning. -/
theorem Took.trans (h : steady.Took sink middle bytes places)
    (hmore : steady.Took middle next more later) :
    steady.Took sink next (bytes ++ more) (places ++ later.map (bytes.length + ·)) := by
  refine ⟨hmore.covers, ?_, ?_⟩
  · rw [hmore.written_eq, h.written_eq, List.append_assoc]
  · have hlater : later.map ((steady.written middle).length + ·) =
        (later.map (bytes.length + ·)).map ((steady.written sink).length + ·) := by
      rw [h.written_eq, List.length_append, List.map_map]
      refine List.map_congr_left ?_
      intro place _
      exact Nat.add_assoc _ _ _
    rw [hmore.marks_eq, h.marks_eq, hlater, List.append_assoc, List.map_append]

theorem Took.length_marks (h : steady.Took sink next bytes places) :
    (steady.marks next).length = (steady.marks sink).length + places.length := by
  rw [h.marks_eq, List.length_append, List.length_map]

/-- A sink has taken some output up to a place, and was last flushed right there. -/
def FlushedAt (steady : Steady σ limit) (start : σ) (output : List UInt8) (sink : σ)
    (place : Nat) : Prop :=
  ∃ earlier, steady.Took start sink (output.take place) (earlier ++ [place])

theorem FlushedAt.behind {output : List UInt8} {place : Nat} {asked : σ}
    (h : steady.Took sink middle bytes places)
    (hflushed : steady.FlushedAt middle output asked place) :
    steady.FlushedAt sink (bytes ++ output) asked (bytes.length + place) := by
  obtain ⟨earlier, hlater⟩ := hflushed
  refine ⟨places ++ earlier.map (bytes.length + ·), ?_⟩
  have htook := h.trans hlater
  rw [List.map_append, List.map_singleton, ← List.append_assoc] at htook
  rwa [List.take_length_add_append]

/-! ## What the operations take -/

theorem Took.write (h : steady.Took sink middle bytes places) (more : List UInt8) :
    ∃ next, write middle more = (next, .ok ()) ∧ steady.Took sink next (bytes ++ more) places := by
  -- At every offer, what was taken and what is left are together the same bytes.
  have hoffer (current : σ) (left : List UInt8) (hne : left ≠ [])
      (hcurrent : ∃ taken, steady.Took sink current taken places ∧ taken ++ left = bytes ++ more) :
      ∃ next count, offer current left = (next, .taken count) ∧ 0 < count ∧
        ∃ taken, steady.Took sink next taken places ∧
          taken ++ left.drop count = bytes ++ more := by
    obtain ⟨taken, htook, htotal⟩ := hcurrent
    obtain ⟨next, count, hnext, hcount, -, hwritten, hmarks, hcovers⟩ :=
      steady.offer_taken htook.covers hne
    rw [htook.written_eq, List.append_assoc] at hwritten
    refine ⟨next, count, hnext, hcount, _, ⟨hcovers, hwritten, hmarks.trans htook.marks_eq⟩, ?_⟩
    rw [List.append_assoc, List.take_append_drop, htotal]
  obtain ⟨next, hwrite, taken, htook, htotal⟩ := write_of_offers hoffer ⟨bytes, h, rfl⟩
  rw [List.append_nil] at htotal
  exact ⟨next, hwrite, htotal ▸ htook⟩

theorem Took.writeAll (h : steady.Took sink middle bytes places) (texts : List String) :
    ∃ next, writeAll middle texts = (next, .ok ()) ∧
      steady.Took sink next (bytes ++ Utf8.encode (String.join texts)) places := by
  induction texts generalizing middle bytes with
  | nil => exact ⟨middle, rfl, (List.append_nil bytes).symm ▸ h⟩
  | cons text texts ih =>
      obtain ⟨current, hwrite, hcurrent⟩ := h.write (Utf8.encode text)
      obtain ⟨next, hwriteAll, hnext⟩ := ih hcurrent
      rw [List.append_assoc, ← Utf8.encode_append, ← String.join_cons] at hnext
      refine ⟨next, ?_, hnext⟩
      rw [Sink.writeAll, hwrite]
      exact hwriteAll

theorem Took.flush (h : steady.Took sink middle bytes places)
    (hflush : Flushable limit ((steady.marks sink).length + places.length)) :
    ∃ next, flush middle = (next, .ok ()) ∧
      steady.Took sink next bytes (places ++ [bytes.length]) := by
  rw [← h.length_marks] at hflush
  obtain ⟨next, hnext, hwritten, hmarks, hcovers⟩ := steady.flush_ok h.covers hflush
  refine ⟨next, hnext, hcovers, hwritten.trans h.written_eq, ?_⟩
  rw [hmarks, h.marks_eq, h.written_eq, List.length_append, List.map_append, List.append_assoc,
    List.map_singleton]

theorem Took.flush_of_count_le {last : FlushLimit} {steady : Steady σ (some last)}
    (h : steady.Took sink middle bytes places)
    (hcount : last.count ≤ (steady.marks sink).length + places.length) :
    ∃ next, Sink.flush middle = (next, .error last.refusal) ∧
      steady.Took sink next bytes places := by
  rw [← h.length_marks] at hcount
  obtain ⟨next, hnext, hwritten, hmarks, hcovers⟩ := steady.flush_refused rfl h.covers hcount
  exact ⟨next, hnext, hcovers, hwritten.trans h.written_eq, hmarks.trans h.marks_eq⟩

/-- A steady sink without a limit never fails. -/
def metered (steady : Steady σ none) : Metered σ none where
  Covers := steady.Covers
  written := steady.written
  offer_taken := by
    intro sink bytes hsink hne _
    obtain ⟨next, count, hnext, hcount, hle, hwritten, -, hcovers⟩ := steady.offer_taken hsink hne
    exact ⟨next, count, hnext, hcount, hle, hwritten, within_none _, hcovers⟩
  offer_refused := by
    intro sink bytes limit hlimit
    cases hlimit
  flush_ok := by
    intro sink hsink
    obtain ⟨next, hnext, hwritten, -, hcovers⟩ := steady.flush_ok hsink (flushable_none _)
    exact ⟨next, hnext, hwritten, hcovers⟩

end Steady

end RowStore.Sink

namespace RowStore

open Sink

/-- The number of flushes that succeed on a recorder with these limits. -/
def Limits.flushLimit (limits : Limits) : Option FlushLimit :=
  limits.flushes.map fun count => { count, refusal := limits.message }

namespace Recorder

variable {limits : Limits} {recorder : Recorder} {bytes : List UInt8}

theorem offer_of_unlimited (hbytes : limits.bytes = none) (hlimits : recorder.limits = limits)
    (hne : bytes ≠ []) :
    ∃ next count, Sink.offer recorder bytes = (next, .taken count) ∧ 0 < count ∧
      count ≤ bytes.length ∧ next.written.toList = recorder.written.toList ++ bytes.take count ∧
      next.flushes.toList = recorder.flushes.toList ∧ next.limits = limits := by
  subst hlimits
  have hfitting : recorder.fitting bytes = bytes := by rw [fitting, hbytes]
  have hnonempty : bytes.isEmpty = false := List.isEmpty_eq_false_iff.mpr hne
  refine ⟨{ recorder with written := recorder.written ++ bytes }, bytes.length, ?_,
    List.length_pos_iff.mpr hne, Nat.le_refl _, ?_, rfl, rfl⟩
  · simp only [Sink.offer, offer, hfitting, hnonempty, Bool.false_and, Bool.false_eq_true, if_false]
  · rw [List.take_length, Array.toList_appendList]

theorem flush_of_flushable (hlimits : recorder.limits = limits)
    (hflush : Flushable limits.flushLimit recorder.flushes.toList.length) :
    ∃ next, Sink.flush recorder = (next, .ok ()) ∧
      next.written.toList = recorder.written.toList ∧
      next.flushes.toList = recorder.flushes.toList ++ [recorder.written.toList.length] ∧
      next.limits = limits := by
  subst hlimits
  have hcan : recorder.canFlush = true := by
    unfold canFlush
    split
    next => rfl
    next count hcount => simpa [Limits.flushLimit, hcount, Flushable] using hflush
  refine ⟨{ recorder with flushes := recorder.flushes.push recorder.written.size }, ?_, rfl, ?_,
    rfl⟩
  · simp only [Sink.flush, flush, hcan, if_true]
  · rw [Array.toList_push, Array.length_toList]

theorem flush_of_count_le {last : FlushLimit} (hlast : limits.flushLimit = some last)
    (hlimits : recorder.limits = limits) (hcount : last.count ≤ recorder.flushes.toList.length) :
    ∃ next, Sink.flush recorder = (next, .error last.refusal) ∧
      next.written.toList = recorder.written.toList ∧
      next.flushes.toList = recorder.flushes.toList ∧ next.limits = limits := by
  subst hlimits
  obtain ⟨count, hflushes, rfl⟩ := Option.map_eq_some_iff.mp hlast
  have hcan : recorder.canFlush = false := by
    rw [canFlush, hflushes]
    simpa using hcount
  refine ⟨recorder, ?_, rfl, rfl, rfl⟩
  simp only [Sink.flush, flush, hcan, Bool.false_eq_true, if_false]

/-- A recorder without a limit of bytes is steady. -/
def steady {limit : Option FlushLimit} (limits : Limits) (hlimit : limits.flushLimit = limit)
    (hbytes : limits.bytes = none) : Steady Recorder limit where
  Covers recorder := recorder.limits = limits
  written recorder := recorder.written.toList
  marks recorder := recorder.flushes.toList
  offer_taken := offer_of_unlimited hbytes
  flush_ok := fun hlimits hflush => flush_of_flushable hlimits (hlimit ▸ hflush)
  flush_refused := fun hlast => flush_of_count_le (hlimit.trans hlast)

end Recorder

end RowStore
