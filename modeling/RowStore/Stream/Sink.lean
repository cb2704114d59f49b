import RowStore.Text.Utf8

/-! # Output

A sink takes bytes. It may take fewer than it is offered, or fail, and it may
fail to flush. Writing goes on until everything is taken. Main statement: what
each offer of a write preserves holds when nothing is left to offer.
-/

namespace RowStore

open Text

/-- The answer to one offer of bytes. -/
inductive Uptake where
  /-- The first `count` bytes were taken. -/
  | taken (count : Nat)
  /-- No bytes were taken. -/
  | failed (message : String)

/-- A place to which bytes are written. -/
class Sink (σ : Type) where
  /-- Offers bytes, at least one. -/
  offer : σ → List UInt8 → σ × Uptake
  /-- Passes on everything that was taken, or gives the message of a failure. -/
  flush : σ → σ × Except String Unit

namespace Sink

variable {σ : Type} [Sink σ]

/-- The message for a sink that takes nothing and does not fail. -/
def stalled : String := "failed to write whole buffer"

/-- Offers the bytes again and again until all of them are taken. -/
def write (sink : σ) (bytes : List UInt8) : σ × Except String Unit :=
  match bytes with
  | [] => (sink, .ok ())
  | first :: rest =>
    match offer sink (first :: rest) with
    | (sink, .failed message) => (sink, .error message)
    | (sink, .taken 0) => (sink, .error stalled)
    | (sink, .taken (count + 1)) => write sink (rest.drop count)
termination_by bytes.length

/-- Writes texts one after the other, up to the first failure. -/
def writeAll (sink : σ) : List String → σ × Except String Unit
  | [] => (sink, .ok ())
  | text :: texts =>
    match write sink (Utf8.encode text) with
    | (sink, .error message) => (sink, .error message)
    | (sink, .ok ()) => writeAll sink texts

theorem write_of_taken {sink next : σ} {bytes : List UInt8} {count : Nat} (hne : bytes ≠ [])
    (hoffer : offer sink bytes = (next, .taken count)) (hpos : 0 < count) :
    write sink bytes = write next (bytes.drop count) := by
  obtain ⟨first, rest, rfl⟩ := List.exists_cons_of_ne_nil hne
  obtain ⟨less, rfl⟩ := Nat.exists_eq_add_one.mpr hpos
  rw [write, hoffer, List.drop_succ_cons]

/-- A write succeeds if every offer is taken at least in part. The motive is about the sink and the
bytes that are left. -/
theorem write_of_offers {motive : σ → List UInt8 → Prop}
    (hoffer : ∀ sink bytes, bytes ≠ [] → motive sink bytes →
      ∃ next count, offer sink bytes = (next, .taken count) ∧ 0 < count ∧
        motive next (bytes.drop count))
    {sink : σ} {bytes : List UInt8} (h : motive sink bytes) :
    ∃ next, write sink bytes = (next, .ok ()) ∧ motive next [] := by
  by_cases hne : bytes = []
  · subst hne
    exact ⟨sink, by rw [write], h⟩
  · have hpos := List.length_pos_iff.mpr hne
    obtain ⟨middle, count, htaken, hcount, hmiddle⟩ := hoffer sink bytes hne h
    obtain ⟨next, hwrite, hnext⟩ := write_of_offers hoffer hmiddle
    exact ⟨next, by rw [write_of_taken hne htaken hcount, hwrite], hnext⟩
termination_by bytes.length
decreasing_by
  rw [List.length_drop]
  omega

end Sink

end RowStore
