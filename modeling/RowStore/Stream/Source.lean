import RowStore.Text.Utf8

/-! # Input

A source holds the bytes that can still be read, in the chunks in which they
become visible, and says what happens behind them. A line is everything up to
and including the next newline; the last one may lack it. A line that is cut by
a failure is lost. Main statement: a line takes at least one byte.
-/

namespace RowStore

open Text

/-- What a reader meets when no bytes are left. -/
inductive Ending where
  /-- The input is complete. -/
  | complete
  /-- Reading fails, and `hidden` more bytes are never seen. -/
  | failure (message : String) (hidden : Nat)
deriving DecidableEq

/-- Input that has not been read yet. -/
structure Source where
  chunks : List (List UInt8)
  ending : Ending := .complete

/-- The result of asking for a line. -/
inductive Reading where
  /-- A line, with its newline if it has one. -/
  | line (text : String)
  /-- There are no more lines. -/
  | ended
  /-- Reading failed. -/
  | failed (message : String)

namespace Source

/-- The byte that ends a line. -/
def newline : UInt8 := 10

/-- The message for a line that is not valid UTF-8. -/
def invalidText : String := "stream did not contain valid UTF-8"

/-- Cuts bytes into chunks of a given size, of which the last may be shorter,
and puts them behind the chunks that are there already. -/
def splitOnto (size : Nat) (chunks : Array (List UInt8)) : List UInt8 → List (List UInt8)
  | [] => chunks.toList
  | first :: rest =>
    splitOnto size (chunks.push (first :: rest.take (size - 1))) (rest.drop (size - 1))
termination_by bytes => bytes.length

/-- Cuts bytes into chunks of a given size. Without a size they are one chunk. -/
def split (size : Option Nat) (bytes : List UInt8) : List (List UInt8) :=
  match size with
  | none => [bytes]
  | some size => splitOnto size #[] bytes

/-- The input with these bytes. Given a place inside them or at their end,
reading fails there; a place behind the end is never reached. -/
def ofBytes (bytes : List UInt8) (chunkSize : Option Nat) (failure : Option (Nat × String)) :
    Source :=
  match failure with
  | none => { chunks := split chunkSize bytes }
  | some (place, message) =>
    if place ≤ bytes.length then
      { chunks := split chunkSize (bytes.take place)
        ending := .failure message (bytes.length - place) }
    else { chunks := split chunkSize bytes }

/-- The bytes that can be read. -/
def pending (source : Source) : List UInt8 :=
  source.chunks.flatten

/-- The number of bytes that were not read. -/
def unread (source : Source) : Nat :=
  match source.ending with
  | .complete => source.pending.length
  | .failure _ hidden => source.pending.length + hidden

/-- The bytes up to a newline, and the chunks behind it. -/
structure Piece where
  bytes : Array UInt8
  terminated : Bool
  rest : List (List UInt8)

/-- Takes chunks until one holds a newline, which is taken too. -/
def takeLine (taken : Array UInt8) : List (List UInt8) → Piece
  | [] => { bytes := taken, terminated := false, rest := [] }
  | chunk :: chunks =>
    match chunk.dropWhile (· != newline) with
    | [] => takeLine (taken ++ chunk) chunks
    | stop :: rest =>
      { bytes := (taken ++ chunk.takeWhile (· != newline)).push stop
        terminated := true
        rest := rest :: chunks }

/-- The text of a line. -/
def Reading.ofBytes (bytes : Array UInt8) : Reading :=
  match Utf8.decode? bytes with
  | none => .failed invalidText
  | some text => .line text

/-- Reads a line. -/
def readLine (source : Source) : Reading × Source :=
  let piece := takeLine #[] source.chunks
  let rest : Source := { source with chunks := piece.rest }
  if piece.terminated then (Reading.ofBytes piece.bytes, rest)
  else
    match source.ending with
    | .failure message _ => (.failed message, rest)
    | .complete =>
      if piece.bytes.isEmpty then (.ended, rest) else (Reading.ofBytes piece.bytes, rest)

/-! ## Chunks -/

theorem flatten_splitOnto (size : Nat) (chunks : Array (List UInt8)) (bytes : List UInt8) :
    (splitOnto size chunks bytes).flatten = chunks.toList.flatten ++ bytes := by
  fun_induction splitOnto size chunks bytes with
  | case1 => simp
  | case2 chunks first rest ih => simp [ih, List.take_append_drop]

/-- The chunks hold the bytes, whatever the size is. -/
theorem flatten_split (size : Option Nat) (bytes : List UInt8) :
    (split size bytes).flatten = bytes := by
  cases size with
  | none => simp [split]
  | some size => simp [split, flatten_splitOnto]

/-! ## Lines take bytes -/

/-- Nothing is lost between a piece and what is behind it. -/
theorem toList_takeLine_append (taken : Array UInt8) (chunks : List (List UInt8)) :
    (takeLine taken chunks).bytes.toList ++ (takeLine taken chunks).rest.flatten =
      taken.toList ++ chunks.flatten := by
  induction chunks generalizing taken with
  | nil => simp [takeLine]
  | cons chunk chunks ih =>
    simp only [takeLine]
    split
    next => simp [ih]
    next stop rest hcons =>
      have hchunk (tail : List UInt8) :
          chunk.takeWhile (· != newline) ++ stop :: (rest ++ tail) = chunk ++ tail := by
        rw [← List.cons_append, ← hcons, ← List.append_assoc, List.takeWhile_append_dropWhile]
      simp only [Array.toList_push, Array.toList_appendList, List.flatten_cons, List.append_assoc,
        List.singleton_append, hchunk]

/-- A newline was taken if one was found. -/
theorem bytes_takeLine_ne_empty {taken : Array UInt8} {chunks : List (List UInt8)}
    (h : (takeLine taken chunks).terminated = true) : (takeLine taken chunks).bytes ≠ #[] := by
  induction chunks generalizing taken with
  | nil => simp [takeLine] at h
  | cons chunk chunks ih =>
    simp only [takeLine] at h ⊢
    split
    next hnil => simp only [hnil] at h; exact ih h
    next => simp

/-- A line takes at least one byte. -/
theorem pending_lt_of_line {source rest : Source} {text : String}
    (h : source.readLine = (.line text, rest)) : rest.pending.length < source.pending.length := by
  have hsize := congrArg List.length (toList_takeLine_append #[] source.chunks)
  have hrest : rest.chunks = (takeLine #[] source.chunks).rest := by
    rw [← congrArg (·.2.chunks) h]
    simp only [readLine]
    split
    · rfl
    · split
      · rfl
      · split <;> rfl
  have hne : (takeLine #[] source.chunks).bytes ≠ #[] := by
    simp only [readLine] at h
    split at h
    next hterminated => exact bytes_takeLine_ne_empty hterminated
    next =>
      split at h
      next => cases h
      next =>
        split at h
        next => cases h
        next hne => simpa using hne
  have hpos := Array.size_pos_iff.mpr hne
  simp only [List.length_append, Array.length_toList] at hsize
  simp only [pending, hrest]
  simp only [List.length_nil] at hsize
  omega

end Source

end RowStore
