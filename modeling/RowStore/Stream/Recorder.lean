import RowStore.Stream.Sink

/-! # Recorded output

A recorder is a sink that keeps what it is given and fails where it is told to.
Of an offer it keeps the part that there is room for.
-/

namespace RowStore

open Text

/-- What a recorder is told to fail at. -/
structure Limits where
  /-- The number of bytes that are taken, if not all. -/
  bytes : Option Nat := none
  /-- Whether it takes nothing, instead of failing, after that. -/
  stalls : Bool := false
  /-- The number of flushes that succeed, if not all. -/
  flushes : Option Nat := none
  /-- The message of a failure. -/
  message : String := "closed"

/-- What a write without room ends with. -/
def Limits.fullMessage (limits : Limits) : String :=
  if limits.stalls then Sink.stalled else limits.message

/-- Everything that was written, and its length at each successful flush. -/
structure Recorder where
  limits : Limits := {}
  written : Array UInt8 := #[]
  flushes : Array Nat := #[]

namespace Recorder

/-- The part of an offer that the limit leaves room for. -/
def fitting (recorder : Recorder) (bytes : List UInt8) : List UInt8 :=
  match recorder.limits.bytes with
  | none => bytes
  | some limit => bytes.take (limit - recorder.written.size)

/-- Takes what there is room for. Without room it fails or stalls. -/
def offer (recorder : Recorder) (bytes : List UInt8) : Recorder × Uptake :=
  let taken := recorder.fitting bytes
  if taken.isEmpty && !recorder.limits.stalls then (recorder, .failed recorder.limits.message)
  else ({ recorder with written := recorder.written ++ taken }, .taken taken.length)

/-- Whether one more flush succeeds. -/
def canFlush (recorder : Recorder) : Bool :=
  match recorder.limits.flushes with
  | none => true
  | some limit => recorder.flushes.size < limit

/-- Notes the flush, if it succeeds. -/
def flush (recorder : Recorder) : Recorder × Except String Unit :=
  if recorder.canFlush then
    ({ recorder with flushes := recorder.flushes.push recorder.written.size }, .ok ())
  else (recorder, .error recorder.limits.message)

instance : Sink Recorder where
  offer := offer
  flush := flush

end Recorder

end RowStore
