import RowStore.Proofs.Stream.Lines

/-! # Successive readings

Readings that follow each other cut the input into pieces, one for each of them,
and lose nothing. A piece is a line with its newline, whether its bytes are valid
or not, and only the last one may lack the newline. That no bytes are left is the
one reason for a reading to take none, so it is what tells the end of the input:
a blank line is no such sign. Nothing of this depends on the chunks, which may
end within a character.
-/

namespace RowStore

open Text

namespace Source

/-- The bytes that the next reading takes. -/
def piece (source : Source) : List UInt8 :=
  (takeLine #[] source.chunks).bytes.toList

/-- A reading with the bytes that it takes. -/
structure Draw where
  piece : List UInt8
  reading : Reading

/-- The next reading. -/
def draw (source : Source) : Draw :=
  { piece := source.piece, reading := source.readLine.1 }

/-- The source behind so many readings. -/
def behind (source : Source) : Nat → Source
  | 0 => source
  | count + 1 => (source.behind count).readLine.2

/-- The first readings, one after the other. -/
def draws (source : Source) (count : Nat) : List Draw :=
  (List.range count).map fun n => (source.behind n).draw

theorem draws_succ (source : Source) (count : Nat) :
    source.draws (count + 1) = source.draws count ++ [(source.behind count).draw] := by
  rw [draws, List.range_succ, List.map_append]
  rfl

/-! ## One reading -/

/-- Whatever a reading results in, its piece is gone. -/
theorem readLine_snd (source : Source) :
    source.readLine.2 = { source with chunks := (takeLine #[] source.chunks).rest } := by
  simp only [readLine]
  split
  · rfl
  · split
    · rfl
    · split
      · rfl
      · rfl

theorem piece_append_pending (source : Source) :
    source.piece ++ source.readLine.2.pending = source.pending := by
  rw [readLine_snd]
  exact toList_takeLine_append #[] source.chunks

theorem piece_of_newline {source : Source} {line rest : List UInt8}
    (hpending : source.pending = line ++ newline :: rest) (hline : newline ∉ line) :
    source.piece = line ++ [newline] :=
  (takeLine_of_newline #[] hpending hline).2.1

theorem piece_of_not_mem {source : Source} (h : newline ∉ source.pending) :
    source.piece = source.pending :=
  (takeLine_of_not_mem #[] h).2.1

/-- What a reading has to do with the bytes in front of it, if the source does not fail. -/
structure ReadsPiece (source : Source) : Prop where
  piece_append : source.piece ++ source.readLine.2.pending = source.pending
  /-- A piece ends with its only newline, or it is all that is left. -/
  ends : (∃ line, source.piece = line ++ [newline] ∧ newline ∉ line) ∨
    newline ∉ source.piece ∧ source.readLine.2.pending = []
  ended_iff : source.readLine.1 = .ended ↔ source.pending = []
  piece_eq_nil_iff : source.piece = [] ↔ source.pending = []
  ne_nil_of_line : ∀ text, source.readLine.1 = .line text → source.piece ≠ []
  /-- If there are bytes, the piece alone says what is read. -/
  reading_eq : source.pending ≠ [] → source.readLine.1 = Reading.ofBytes source.piece.toArray

theorem Reading.ofBytes_ne_ended (bytes : Array UInt8) : Reading.ofBytes bytes ≠ .ended := by
  rw [Reading.ofBytes]
  split
  · simp
  · simp

/-- A reading that takes bytes is the reading of its piece. -/
theorem ReadsPiece.of_bytes {source : Source}
    (hends : (∃ line, source.piece = line ++ [newline] ∧ newline ∉ line) ∨
      newline ∉ source.piece ∧ source.readLine.2.pending = [])
    (hpiece : source.piece ≠ [])
    (hreading : source.readLine.1 = Reading.ofBytes source.piece.toArray) : source.ReadsPiece := by
  have hpending : source.pending ≠ [] := by
    rw [← source.piece_append_pending]
    exact List.append_ne_nil_of_left_ne_nil hpiece _
  refine
    { piece_append := source.piece_append_pending
      ends := hends
      ended_iff := iff_of_false ?_ hpending
      piece_eq_nil_iff := iff_of_false hpiece hpending
      ne_nil_of_line := fun _ _ => hpiece
      reading_eq := fun _ => hreading }
  rw [hreading]
  exact Reading.ofBytes_ne_ended _

theorem readsPiece {source : Source} (hending : source.ending = .complete) :
    source.ReadsPiece := by
  by_cases hmem : newline ∈ source.pending
  · obtain ⟨line, rest, hpending, hline⟩ := List.eq_append_cons_of_mem hmem
    obtain ⟨next, hread, -, -⟩ := readLine_of_newline hpending hline
    have hpiece := piece_of_newline hpending hline
    refine .of_bytes (Or.inl ⟨line, hpiece, hline⟩) ?_ ?_
    · rw [hpiece]
      exact List.append_ne_nil_of_right_ne_nil _ (List.cons_ne_nil _ _)
    · rw [hread, hpiece]
  · have hpiece := piece_of_not_mem hmem
    by_cases hnil : source.pending = []
    · obtain ⟨next, hread, hnext, -⟩ := readLine_of_nil hnil hending
      refine
        { piece_append := source.piece_append_pending
          ends := Or.inr ⟨hpiece ▸ hmem, ?_⟩
          ended_iff := iff_of_true (congrArg Prod.fst hread) hnil
          piece_eq_nil_iff := by rw [hpiece]
          ne_nil_of_line := ?_
          reading_eq := fun hne => absurd hnil hne }
      · rw [hread]
        exact hnext
      · intro text hline
        rw [hread] at hline
        cases hline
    · obtain ⟨next, hread, hnext, -⟩ := readLine_of_tail rfl hmem hnil hending
      refine .of_bytes (Or.inr ⟨hpiece ▸ hmem, ?_⟩) (hpiece ▸ hnil) ?_
      · rw [hread]
        exact hnext
      · rw [hread, hpiece]

/-! ## Any number of readings -/

theorem ending_behind (source : Source) (count : Nat) :
    (source.behind count).ending = source.ending := by
  induction count with
  | zero => rfl
  | succ count ih =>
      rw [behind, readLine_snd]
      exact ih

/-- The pieces are the input, up to the bytes that are left. -/
theorem flatten_draws_append (source : Source) (count : Nat) :
    ((source.draws count).map Draw.piece).flatten ++ (source.behind count).pending =
      source.pending := by
  induction count with
  | zero => rfl
  | succ count ih =>
      rw [draws_succ, List.map_append, List.flatten_append, List.append_assoc, ← ih]
      refine congrArg (_ ++ ·) ?_
      rw [← (source.behind count).piece_append_pending]
      simp [draw, behind]

theorem Alike.behind {source other : Source} (h : source.Alike other) (count : Nat) :
    (source.behind count).Alike (other.behind count) := by
  induction count with
  | zero => exact h
  | succ count ih =>
      obtain ⟨reading, next, next', hread, hread', hnext⟩ := ih.readLine
      rw [Source.behind, Source.behind, hread, hread']
      exact hnext

theorem Alike.draw {source other : Source} (h : source.Alike other) :
    source.draw = other.draw := by
  obtain ⟨reading, next, next', hread, hread', hnext⟩ := h.readLine
  have hpiece : source.piece = other.piece := by
    have happend := source.piece_append_pending
    have happend' := other.piece_append_pending
    rw [hread] at happend
    rw [hread', ← h.1, ← hnext.1] at happend'
    exact List.append_cancel_right (happend.trans happend'.symm)
  rw [Source.draw, Source.draw, hpiece, hread, hread']

/-- Chunks have no influence on the pieces. -/
theorem Alike.draws {source other : Source} (h : source.Alike other) (count : Nat) :
    source.draws count = other.draws count :=
  List.map_congr_left fun n _ => (h.behind n).draw

end Source

end RowStore
