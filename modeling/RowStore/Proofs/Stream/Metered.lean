import RowStore.Stream.Recorder

/-! # Sinks that take so many bytes

A sink may take an offer in portions of its own choice. What a write leads to
depends only on how many bytes the sink takes in all: a write within that number
succeeds, and one across it fails after exactly the bytes that fit. This covers
the sinks that never fail, which have no such number.
-/

namespace RowStore.Text.Utf8

/-! ## Texts that are cut -/

theorem take_encode_append {first : String} {room : Nat} (h : room < first.utf8ByteSize)
    (second : String) : (encode (first ++ second)).take room = (encode first).take room := by
  rw [encode_append, List.take_append_of_le_length]
  rw [length_encode]
  exact Nat.le_of_lt h

theorem take_encode_append_self (first second : String) :
    (encode (first ++ second)).take first.utf8ByteSize = encode first := by
  rw [encode_append, ← length_encode, List.take_left]

theorem take_encode_append_add (first second : String) (left : Nat) :
    (encode (first ++ second)).take (first.utf8ByteSize + left) =
      encode first ++ (encode second).take left := by
  rw [encode_append, ← length_encode, List.take_length_add_append]

end RowStore.Text.Utf8

namespace RowStore.Sink

open Text

/-! ## Allowances -/

/-- A number of bytes that are taken in all, and the message for any more. -/
structure Allowance where
  bytes : Nat
  refusal : String

/-- A size stays within an allowance. If there is none, every size does. -/
def Within (allowance : Option Allowance) (size : Nat) : Prop :=
  ∀ limit ∈ allowance, size ≤ limit.bytes

theorem Within.mono {allowance : Option Allowance} {size smaller : Nat}
    (h : Within allowance size) (hle : smaller ≤ size) : Within allowance smaller :=
  fun limit hlimit => Nat.le_trans hle (h limit hlimit)

theorem within_none (size : Nat) : Within none size := by
  intro limit hlimit
  cases hlimit

theorem within_some {limit : Allowance} {size : Nat} :
    Within (some limit) size ↔ size ≤ limit.bytes := by
  simp [Within]

/-- The sinks that behave according to an allowance. An offer within it is taken at least in part;
an offer without room for a single byte is refused, either by a failure or by taking nothing.
Flushes succeed. -/
structure Metered (σ : Type) [Sink σ] (allowance : Option Allowance) where
  /-- The sinks that it is about. -/
  Covers : σ → Prop
  /-- The bytes that were taken so far. -/
  written : σ → List UInt8
  offer_taken {sink : σ} {bytes : List UInt8} : Covers sink → bytes ≠ [] →
    Within allowance ((written sink).length + 1) →
    ∃ next count, offer sink bytes = (next, .taken count) ∧ 0 < count ∧ count ≤ bytes.length ∧
      written next = written sink ++ bytes.take count ∧
      Within allowance (written next).length ∧ Covers next
  offer_refused {sink : σ} {bytes : List UInt8} {limit : Allowance} : allowance = some limit →
    Covers sink → bytes ≠ [] → limit.bytes ≤ (written sink).length →
    ∃ next uptake, offer sink bytes = (next, uptake) ∧
      (uptake = .failed limit.refusal ∨ uptake = .taken 0 ∧ limit.refusal = stalled) ∧
      written next = written sink ∧ Covers next
  flush_ok {sink : σ} : Covers sink →
    ∃ next, flush sink = (next, .ok ()) ∧ written next = written sink ∧ Covers next

namespace Metered

variable {σ : Type} [Sink σ] {allowance : Option Allowance}

/-- A sink has taken all of these bytes but those that are left. -/
def Lacks (metered : Metered σ allowance) (total : List UInt8) (sink : σ) (left : List UInt8) :
    Prop :=
  metered.Covers sink ∧ metered.written sink ++ left = total

/-- A write within the allowance succeeds. -/
theorem write_of_within (metered : Metered σ allowance) {sink : σ} (hsink : metered.Covers sink)
    (bytes : List UInt8)
    (hwithin : Within allowance ((metered.written sink).length + bytes.length)) :
    ∃ next, write sink bytes = (next, .ok ()) ∧
      metered.written next = metered.written sink ++ bytes ∧ metered.Covers next := by
  have hoffer (middle : σ) (left : List UInt8) (hne : left ≠ [])
      (h : metered.Lacks (metered.written sink ++ bytes) middle left) :
      ∃ next count, offer middle left = (next, .taken count) ∧ 0 < count ∧
        metered.Lacks (metered.written sink ++ bytes) next (left.drop count) := by
    have hpos := List.length_pos_iff.mpr hne
    have hlength := congrArg List.length h.2
    rw [List.length_append, List.length_append] at hlength
    obtain ⟨next, count, htaken, hcount, -, hwritten, -, hcovers⟩ :=
      metered.offer_taken h.1 hne (hwithin.mono (by omega))
    refine ⟨next, count, htaken, hcount, hcovers, ?_⟩
    rw [hwritten, List.append_assoc, List.take_append_drop, h.2]
  obtain ⟨next, hwrite, hcovers, hwritten⟩ := write_of_offers hoffer ⟨hsink, rfl⟩
  rw [List.append_nil] at hwritten
  exact ⟨next, hwrite, hwritten, hcovers⟩

/-- Without room for a single byte, a write fails at once. -/
theorem write_of_full {limit : Allowance} (metered : Metered σ (some limit)) {sink : σ}
    {bytes : List UInt8} (hsink : metered.Covers sink) (hne : bytes ≠ [])
    (hfull : limit.bytes ≤ (metered.written sink).length) :
    ∃ next, write sink bytes = (next, .error limit.refusal) ∧
      metered.written next = metered.written sink ∧ metered.Covers next := by
  obtain ⟨next, uptake, hoffer, huptake, hwritten, hcovers⟩ :=
    metered.offer_refused rfl hsink hne hfull
  refine ⟨next, ?_, hwritten, hcovers⟩
  obtain ⟨first, rest, rfl⟩ := List.exists_cons_of_ne_nil hne
  rw [write, hoffer]
  rcases huptake with rfl | ⟨rfl, hstalled⟩
  · rfl
  · rw [hstalled]

/-- A write across the allowance fails after the bytes that there is room for. -/
theorem write_of_exceeds {limit : Allowance} (metered : Metered σ (some limit)) {sink : σ}
    (hsink : metered.Covers sink) (bytes : List UInt8) {room : Nat}
    (hroom : limit.bytes = (metered.written sink).length + room) (hexceeds : room < bytes.length) :
    ∃ next, write sink bytes = (next, .error limit.refusal) ∧
      metered.written next = metered.written sink ++ bytes.take room ∧ metered.Covers next := by
  have hne : bytes ≠ [] := by
    rintro rfl
    exact Nat.not_lt_zero _ hexceeds
  rcases Nat.eq_zero_or_pos room with rfl | hpos
  · rw [List.take_zero, List.append_nil]
    exact metered.write_of_full hsink hne (Nat.le_of_eq hroom)
  · obtain ⟨middle, count, hoffer, hcount, hle, hwritten, hmiddle, hcovers⟩ :=
      metered.offer_taken hsink hne (within_some.mpr (by omega))
    have hlength : (metered.written middle).length = (metered.written sink).length + count := by
      rw [hwritten, List.length_append, List.length_take, Nat.min_eq_left hle]
    have hfits := within_some.mp hmiddle
    obtain ⟨left, rfl⟩ : ∃ left, room = count + left := ⟨room - count, by omega⟩
    have hleft : limit.bytes = (metered.written middle).length + left := by omega
    obtain ⟨next, hwrite, hnext, hcovers⟩ :=
      write_of_exceeds metered hcovers (bytes.drop count) hleft
        (by rw [List.length_drop]; omega)
    refine ⟨next, ?_, ?_, hcovers⟩
    · rw [write_of_taken hne hoffer hcount, hwrite]
    · rw [hnext, hwritten, List.append_assoc, List.take_add]
termination_by bytes.length
decreasing_by
  rw [List.length_drop]
  omega

/-- Texts within the allowance are written one after the other. -/
theorem writeAll_of_within (metered : Metered σ allowance) {sink : σ}
    (hsink : metered.Covers sink) (texts : List String)
    (hwithin : Within allowance
      ((metered.written sink).length + (String.join texts).utf8ByteSize)) :
    ∃ next, writeAll sink texts = (next, .ok ()) ∧
      metered.written next = metered.written sink ++ Utf8.encode (String.join texts) ∧
      metered.Covers next := by
  induction texts generalizing sink with
  | nil => exact ⟨sink, rfl, by simp [Utf8.encode_eq_flatMap], hsink⟩
  | cons text texts ih =>
      rw [String.join_cons, String.utf8ByteSize_append] at hwithin
      obtain ⟨middle, hwrite, hmiddle, hcovers⟩ :=
        metered.write_of_within hsink (Utf8.encode text)
          (hwithin.mono (by rw [Utf8.length_encode]; omega))
      obtain ⟨next, hwriteAll, hnext, hcovers⟩ := ih hcovers (by
        rw [hmiddle, List.length_append, Utf8.length_encode]
        exact hwithin.mono (by omega))
      refine ⟨next, ?_, ?_, hcovers⟩
      · rw [writeAll, hwrite]
        exact hwriteAll
      · rw [hnext, hmiddle, String.join_cons, Utf8.encode_append, List.append_assoc]

/-- Texts across the allowance fail at the byte where it ends, in whichever text that is. -/
theorem writeAll_of_exceeds {limit : Allowance} (metered : Metered σ (some limit)) {sink : σ}
    (hsink : metered.Covers sink) (texts : List String) {room : Nat}
    (hroom : limit.bytes = (metered.written sink).length + room)
    (hexceeds : room < (String.join texts).utf8ByteSize) :
    ∃ next, writeAll sink texts = (next, .error limit.refusal) ∧
      metered.written next = metered.written sink ++ (Utf8.encode (String.join texts)).take room ∧
      metered.Covers next := by
  induction texts generalizing sink room with
  | nil => exact absurd hexceeds (Nat.not_lt_zero _)
  | cons text texts ih =>
      rw [String.join_cons, String.utf8ByteSize_append] at hexceeds
      rw [String.join_cons]
      rcases Nat.lt_or_ge room text.utf8ByteSize with hcut | hfits
      · obtain ⟨next, hwrite, hnext, hcovers⟩ :=
          metered.write_of_exceeds hsink (Utf8.encode text) hroom (by rwa [Utf8.length_encode])
        refine ⟨next, by rw [writeAll, hwrite], ?_, hcovers⟩
        rw [hnext, Utf8.take_encode_append hcut]
      · obtain ⟨left, rfl⟩ := Nat.exists_eq_add_of_le hfits
        obtain ⟨middle, hwrite, hmiddle, hcovers⟩ :=
          metered.write_of_within hsink (Utf8.encode text)
            (within_some.mpr (by rw [Utf8.length_encode]; omega))
        have hleft : limit.bytes = (metered.written middle).length + left := by
          rw [hroom, hmiddle, List.length_append, Utf8.length_encode, Nat.add_assoc]
        obtain ⟨next, hwriteAll, hnext, hcovers⟩ :=
          ih hcovers hleft (Nat.lt_of_add_lt_add_left hexceeds)
        refine ⟨next, ?_, ?_, hcovers⟩
        · rw [writeAll, hwrite]
          exact hwriteAll
        · rw [hnext, hmiddle, List.append_assoc, Utf8.take_encode_append_add]

end Metered

end RowStore.Sink

namespace RowStore

open Sink

/-- What a recorder with these limits takes in all. -/
def Limits.allowance (limits : Limits) : Option Allowance :=
  limits.bytes.map fun bytes => { bytes, refusal := limits.fullMessage }

theorem Limits.allowance_eq_none {limits : Limits} (h : limits.bytes = none) :
    limits.allowance = none := by
  rw [allowance, h, Option.map_none]

theorem Limits.allowance_eq_some {limits : Limits} {bytes : Nat} (h : limits.bytes = some bytes) :
    limits.allowance = some { bytes, refusal := limits.fullMessage } := by
  rw [allowance, h, Option.map_some]

namespace Recorder

theorem fitting_eq_take (recorder : Recorder) (bytes : List UInt8) :
    recorder.fitting bytes = bytes.take (recorder.fitting bytes).length := by
  unfold fitting
  split
  next => rw [List.take_length]
  next limit hlimit => rw [List.length_take, ← List.take_eq_take_min]

theorem length_written_append (recorder : Recorder) (bytes : List UInt8) :
    (recorder.written ++ bytes).size = recorder.written.size + bytes.length := by
  rw [← Array.length_toList, Array.toList_appendList, List.length_append, Array.length_toList]

variable {limits : Limits} {allowance : Option Allowance} {recorder : Recorder} {bytes : List UInt8}

theorem length_fitting_le (recorder : Recorder) (bytes : List UInt8) :
    (recorder.fitting bytes).length ≤ bytes.length := by
  unfold fitting
  split
  next => exact Nat.le_refl _
  next => rw [List.length_take]; exact Nat.min_le_right _ _

theorem length_fitting_pos (hne : bytes ≠ [])
    (hwithin : Within recorder.limits.allowance (recorder.written.size + 1)) :
    0 < (recorder.fitting bytes).length := by
  have hbytes := List.length_pos_iff.mpr hne
  unfold fitting
  split
  next => exact hbytes
  next limit hlimit =>
    have hroom := hwithin _ (Option.mem_def.mpr (Limits.allowance_eq_some hlimit))
    rw [List.length_take]
    simp only at hroom
    omega

/-- An offer never takes a recorder beyond its limit. -/
theorem within_append_fitting (bytes : List UInt8)
    (hwithin : Within recorder.limits.allowance (recorder.written.size + 1)) :
    Within recorder.limits.allowance (recorder.written ++ recorder.fitting bytes).size := by
  intro limit hlimit
  obtain ⟨count, hcount, rfl⟩ := Option.map_eq_some_iff.mp (Option.mem_def.mp hlimit)
  have hroom := hwithin _ hlimit
  rw [length_written_append, fitting, hcount]
  simp only [List.length_take] at hroom ⊢
  omega

theorem offer_of_within (hallowance : limits.allowance = allowance)
    (hlimits : recorder.limits = limits) (hne : bytes ≠ [])
    (hwithin : Within allowance (recorder.written.toList.length + 1)) :
    ∃ next count, Sink.offer recorder bytes = (next, .taken count) ∧ 0 < count ∧
      count ≤ bytes.length ∧ next.written.toList = recorder.written.toList ++ bytes.take count ∧
      Within allowance next.written.toList.length ∧ next.limits = limits := by
  subst hallowance hlimits
  have hpos := length_fitting_pos hne hwithin
  refine ⟨{ recorder with written := recorder.written ++ recorder.fitting bytes },
    (recorder.fitting bytes).length, ?_, hpos, length_fitting_le _ _, ?_, ?_, rfl⟩
  · have hnonempty : (recorder.fitting bytes).isEmpty = false := by
      rw [List.isEmpty_eq_false_iff, ← List.length_pos_iff]
      exact hpos
    simp only [Sink.offer, offer, hnonempty, Bool.false_and, Bool.false_eq_true, if_false]
  · rw [← fitting_eq_take, Array.toList_appendList]
  · exact within_append_fitting bytes hwithin

theorem offer_of_full {limit : Allowance} (hlimit : limits.allowance = some limit)
    (hlimits : recorder.limits = limits) (bytes : List UInt8)
    (hfull : limit.bytes ≤ recorder.written.toList.length) :
    ∃ next uptake, Sink.offer recorder bytes = (next, uptake) ∧
      (uptake = .failed limit.refusal ∨ uptake = .taken 0 ∧ limit.refusal = stalled) ∧
      next.written.toList = recorder.written.toList ∧ next.limits = limits := by
  subst hlimits
  obtain ⟨count, hcount, rfl⟩ := Option.map_eq_some_iff.mp hlimit
  have hnone : recorder.fitting bytes = [] := by
    rw [fitting, hcount]
    exact List.take_eq_nil_iff.mpr (Or.inl (Nat.sub_eq_zero_of_le hfull))
  have hoffer : Sink.offer recorder bytes =
      (recorder, if recorder.limits.stalls then .taken 0 else .failed recorder.limits.message) := by
    simp only [Sink.offer, offer, hnone]
    cases recorder.limits.stalls <;> simp
  refine ⟨recorder, _, hoffer, ?_, rfl, rfl⟩
  unfold Limits.fullMessage
  split
  · exact Or.inr ⟨rfl, rfl⟩
  · exact Or.inl rfl

theorem flush_of_unlimited (hflushes : limits.flushes = none) (hlimits : recorder.limits = limits) :
    ∃ next, Sink.flush recorder = (next, .ok ()) ∧
      next.written.toList = recorder.written.toList ∧ next.limits = limits := by
  subst hlimits
  have hflush : recorder.canFlush = true := by rw [canFlush, hflushes]
  refine ⟨{ recorder with flushes := recorder.flushes.push recorder.written.size }, ?_, rfl, rfl⟩
  simp only [Sink.flush, flush, hflush, if_true]

/-- A recorder whose flushes succeed behaves according to its limit of bytes. -/
def metered (limits : Limits) (hallowance : limits.allowance = allowance)
    (hflushes : limits.flushes = none) : Metered Recorder allowance where
  Covers recorder := recorder.limits = limits
  written recorder := recorder.written.toList
  offer_taken := offer_of_within hallowance
  offer_refused := fun hlimit hlimits _ hfull =>
    offer_of_full (hallowance.trans hlimit) hlimits _ hfull
  flush_ok := flush_of_unlimited hflushes

theorem written_metered (hallowance : limits.allowance = allowance)
    (hflushes : limits.flushes = none) (recorder : Recorder) :
    (metered limits hallowance hflushes).written recorder = recorder.written.toList := rfl

end Recorder

end RowStore
