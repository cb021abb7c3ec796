import PortablePdb.Proofs.Except
import PortablePdb.Proofs.SequencePoint.Marks

/-!
# Marks that are out of order

The differences that a record consists of are those of 32-bit numbers.  An offset before that of the
last mark and an end line before the start line have none, so whatever is encoded is in order.
-/

namespace PortablePdb.SequencePoint

/-! ## Differences -/

theorem advance_eq {first last : Nat} (horder : first ≤ last) :
    advance first last = .ok (last - first) :=
  if_pos horder

theorem le_of_advance_eq_ok {first last difference : Nat}
    (hadvance : advance first last = .ok difference) : first ≤ last := by
  by_contra hnot
  rw [advance, if_neg hnot] at hadvance
  cases hadvance

theorem bmod_eq_self {place : Nat} (hplace : place < 0x20000000) :
    Int.bmod place 0x100000000 = place := by
  exact Int.bmod_eq_of_le (by omega) (by omega)

theorem distance_eq {first last : Nat} (hfirst : first < 0x20000000)
    (hlast : last < 0x20000000) :
    distance first last = .ok ((last : Int) - first) := by
  unfold distance
  rw [bmod_eq_self hfirst, bmod_eq_self hlast]
  exact if_pos ⟨by omega, by omega⟩

/-! ## Records -/

/-- Whether the mark's span, if it has one, does not end before the line that it starts at. -/
def Mark.HasOrderedLines : Mark → Prop
  | visible _ startLine _ endLine _ => startLine ≤ endLine
  | _ => True

theorem ordered_of_encodeMark {origin next : Origin} {mark : Mark} {record : List UInt8}
    (hencode : encodeMark origin mark = .ok (record, next)) :
    next.ilOffset = mark.ilOffset?.getD origin.ilOffset ∧ origin.ilOffset ≤ next.ilOffset ∧
      mark.HasOrderedLines := by
  cases mark with
  | document row =>
      obtain ⟨field, -, hpure⟩ := Except.bind_eq_ok hencode
      cases hpure
      exact ⟨rfl, Nat.le_refl origin.ilOffset, trivial⟩
  | hidden ilOffset =>
      obtain ⟨difference, hadvance, hrest⟩ := Except.bind_eq_ok hencode
      obtain ⟨field, -, hpure⟩ := Except.bind_eq_ok hrest
      cases hpure
      exact ⟨rfl, le_of_advance_eq_ok hadvance, trivial⟩
  | visible ilOffset startLine startColumn endLine endColumn =>
      obtain ⟨difference, hadvance, hrest⟩ := Except.bind_eq_ok hencode
      obtain ⟨offset, -, hrest⟩ := Except.bind_eq_ok hrest
      obtain ⟨lines, hlines, hrest⟩ := Except.bind_eq_ok hrest
      obtain ⟨columns, -, hrest⟩ := Except.bind_eq_ok hrest
      obtain ⟨height, -, hrest⟩ := Except.bind_eq_ok hrest
      obtain ⟨width, -, hrest⟩ := Except.bind_eq_ok hrest
      obtain ⟨start, -, hpure⟩ := Except.bind_eq_ok hrest
      cases hpure
      exact ⟨rfl, le_of_advance_eq_ok hadvance, le_of_advance_eq_ok hlines⟩

/-! ## Blobs -/

theorem ordered_of_encodeMarks {origin : Origin} {marks : List Mark} {bytes : List UInt8}
    (hencode : encodeMarks origin marks = .ok bytes) :
    (origin.ilOffset :: marks.filterMap Mark.ilOffset?).IsChain (· ≤ ·) ∧
      ∀ mark ∈ marks, mark.HasOrderedLines := by
  induction marks generalizing origin bytes with
  | nil => exact ⟨.singleton origin.ilOffset, by simp⟩
  | cons mark marks ih =>
      obtain ⟨⟨record, next⟩, hrecord, hrest⟩ := Except.bind_eq_ok hencode
      obtain ⟨others, hothers, -⟩ := Except.bind_eq_ok hrest
      obtain ⟨hnext, horder, hlines⟩ := ordered_of_encodeMark hrecord
      obtain ⟨hoffsets, hmarks⟩ := ih hothers
      refine ⟨?_, List.forall_mem_cons.2 ⟨hlines, hmarks⟩⟩
      cases hoffset : mark.ilOffset? with
      | none =>
          rw [List.filterMap_cons_none hoffset]
          rwa [hnext, hoffset] at hoffsets
      | some ilOffset =>
          rw [List.filterMap_cons_some hoffset]
          rw [hnext, hoffset] at hoffsets horder
          exact hoffsets.cons_cons horder

/-- Only marks are encoded whose offsets do not decrease and whose spans do not end before the line
that they start at. -/
theorem ordered_of_encode {row : Nat} {marks : List Mark} {bytes : List UInt8}
    (hencode : encode row marks = .ok bytes) :
    (marks.filterMap Mark.ilOffset?).IsChain (· ≤ ·) ∧ ∀ mark ∈ marks, mark.HasOrderedLines := by
  obtain ⟨signature, -, hrest⟩ := Except.bind_eq_ok hencode
  by_cases hrow : row = 0
  · rw [if_pos hrow] at hrest
    match marks, hrest with
    | .document initial :: marks, hrest =>
        obtain ⟨field, -, hrest⟩ := Except.bind_eq_ok hrest
        obtain ⟨records, hrecords, -⟩ := Except.bind_eq_ok hrest
        obtain ⟨hoffsets, hmarks⟩ := ordered_of_encodeMarks hrecords
        exact ⟨hoffsets.tail, List.forall_mem_cons.2 ⟨trivial, hmarks⟩⟩
  · rw [if_neg hrow] at hrest
    obtain ⟨records, hrecords, -⟩ := Except.bind_eq_ok hrest
    obtain ⟨hoffsets, hmarks⟩ := ordered_of_encodeMarks hrecords
    exact ⟨hoffsets.tail, hmarks⟩

example : encode 1 [.hidden 5, .hidden 3] = .error .differenceOutOfRange := rfl

example : encode 1 [.visible 0 8 1 7 1] = .error .differenceOutOfRange := rfl

end PortablePdb.SequencePoint
