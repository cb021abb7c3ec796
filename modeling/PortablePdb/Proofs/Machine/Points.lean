import PortablePdb.Document
import PortablePdb.Proofs.Bytes.Local
import PortablePdb.Proofs.Except
import PortablePdb.Proofs.Machine.Heaps
import PortablePdb.Proofs.SequencePoint.WellFormed

/-!
# Loops over blobs in the machine

The points of a method and the parts of a document's name are read until their blob ends.  Each turn
of either loop starts with a compressed number, so each takes a byte and the loop ends.

Places in a document are added as signed numbers of 64 bits, offsets in the code as unsigned numbers
of 32.  What keeps the former in range is an invariant of the loop: the visible point that a place
counts from has passed the check of its span.
-/

namespace PortablePdb

namespace WordReader

open SequencePoint

/-! ## Points -/

def start : (lastVisible : Option SequencePoint) → WordReader (Int × Int)
  | some last => do
      let lines ← compressedSigned
      let line ← certain (Word.addInt? last.startLine lines)
      let columns ← compressedSigned
      let column ← certain (Word.addInt? last.startColumn columns)
      return (line, column)
  | none => do
      let line ← compressedUnsigned
      let column ← compressedUnsigned
      return (line, column)

def span (ilOffset document lines : Nat) (columns : Int) (lastVisible : Option SequencePoint) :
    WordReader SequencePoint := do
  let (line, column) ← start lastVisible
  let endLine ← certain (Word.addInt? line lines)
  let endColumn ← certain (Word.addInt? column columns)
  checked .invalidSequencePoint (visible? ilOffset line column endLine endColumn document)

def point (ilOffset document : Nat) (lastVisible : Option SequencePoint) :
    WordReader SequencePoint := do
  let lines ← compressedUnsigned
  let columns : Int ←
    if lines = 0 then do pure (← compressedUnsigned : Nat) else compressedSigned
  if lines = 0 ∧ columns = 0 then return hidden ilOffset document
  span ilOffset document lines columns lastVisible

def record (progress : Progress) : WordReader Progress := do
  let distance ← compressedUnsigned
  if progress.started ∧ distance = 0 then
    return progress.changeDocument (← compressedUnsigned)
  let ilOffset ← checked .invalidSequencePoint <|
    (Word.addNarrow? progress.ilOffset distance).filter fun sum => sum < offsetLimit
  return progress.addPoint (← point ilOffset progress.document progress.lastVisible)

def points (document : Nat) : WordReader (List SequencePoint) := do
  let _ ← compressedUnsigned
  let start ←
    if document = 0 then do pure ((Progress.start 0).changeDocument (← compressedUnsigned))
    else pure (Progress.start document)
  let progress ← whileNext record start
  return progress.points.toList

/-- The last visible point starts at a place that has passed the check of its span. -/
def Placed (lastVisible : Option SequencePoint) : Prop :=
  ∀ last ∈ lastVisible, last.startLine < offsetLimit ∧ last.startColumn < columnLimit

theorem placed_none : Placed none :=
  fun _ hlast => nomatch hlast

theorem addInt?_of_range {first second : Int} (hfirst : -0x40000000 ≤ first)
    (hfirst' : first < 0x40000000) (hsecond : -0x20000000 ≤ second)
    (hsecond' : second < 0x20000000) : Word.addInt? first second = some (first + second) :=
  if_pos (by omega)

theorem follows_start {lastVisible : Option SequencePoint} (hplaced : Placed lastVisible) :
    Follows (start lastVisible) (readStart lastVisible) := by
  cases lastVisible with
  | none =>
      exact follows_compressedUnsigned.bind fun line _ =>
        follows_compressedUnsigned.bind fun column _ => follows_pure _
  | some last =>
      obtain ⟨hline, hcolumn⟩ := hplaced last rfl
      simp only [offsetLimit, columnLimit] at hline hcolumn
      refine follows_compressedSigned.bind fun lines hlines => ?_
      obtain ⟨_, _, hlines⟩ := hlines
      have hlines := Reader.compressedSigned_range hlines
      rw [addInt?_of_range (by omega) (by omega) (by omega) (by omega)]
      refine follows_certain_bind (follows_compressedSigned.bind fun columns hcolumns => ?_)
      obtain ⟨_, _, hcolumns⟩ := hcolumns
      have hcolumns := Reader.compressedSigned_range hcolumns
      rw [addInt?_of_range (by omega) (by omega) (by omega) (by omega)]
      exact follows_certain_bind (follows_pure _)

theorem range_of_readStart {lastVisible : Option SequencePoint} {place : Int × Int}
    (hplaced : Placed lastVisible) (hplace : (readStart lastVisible).Yields place) :
    (-0x40000000 ≤ place.1 ∧ place.1 < 0x40000000) ∧
      -0x40000000 ≤ place.2 ∧ place.2 < 0x40000000 := by
  obtain ⟨cursor, next, hread⟩ := hplace
  cases lastVisible with
  | none =>
      obtain ⟨line, afterLine, hline, hread⟩ := Reader.bind_eq_ok hread
      obtain ⟨column, afterColumn, hcolumn, hread⟩ := Reader.bind_eq_ok hread
      obtain ⟨rfl, -⟩ := Reader.pure_eq_ok hread
      have hline := Reader.compressedUnsigned_lt hline
      have hcolumn := Reader.compressedUnsigned_lt hcolumn
      dsimp only
      omega
  | some last =>
      obtain ⟨hlastLine, hlastColumn⟩ := hplaced last rfl
      obtain ⟨lines, afterLines, hlines, hread⟩ := Reader.bind_eq_ok hread
      obtain ⟨columns, afterColumns, hcolumns, hread⟩ := Reader.bind_eq_ok hread
      obtain ⟨rfl, -⟩ := Reader.pure_eq_ok hread
      have hlines := Reader.compressedSigned_range hlines
      have hcolumns := Reader.compressedSigned_range hcolumns
      simp only [offsetLimit, columnLimit] at hlastLine hlastColumn
      dsimp only
      omega

/-- The part of a point that is read behind the height and the width of its span. -/
def readSpan (ilOffset document lines : Nat) (columns : Int) (lastVisible : Option SequencePoint) :
    Reader SequencePoint := do
  let (line, column) ← readStart lastVisible
  match visible? ilOffset line column (line + lines) (column + columns) document with
  | some point => return point
  | none => Reader.fail .invalidSequencePoint

theorem follows_span {lines : Nat} {columns : Int} {lastVisible : Option SequencePoint}
    (hlines : lines < 0x20000000) (hcolumns : -0x20000000 ≤ columns)
    (hcolumns' : columns < 0x20000000) (hplaced : Placed lastVisible) (ilOffset document : Nat) :
    Follows (span ilOffset document lines columns lastVisible)
      (readSpan ilOffset document lines columns lastVisible) := by
  refine (follows_start hplaced).bind fun place hplace => ?_
  obtain ⟨⟨hline, hline'⟩, hcolumn, hcolumn'⟩ := range_of_readStart hplaced hplace
  obtain ⟨line, column⟩ := place
  dsimp only at hline hline' hcolumn hcolumn' ⊢
  rw [addInt?_of_range hline hline' (by omega) (by omega)]
  refine follows_certain_bind ?_
  rw [addInt?_of_range hcolumn hcolumn' hcolumns hcolumns']
  refine follows_certain_bind ?_
  cases visible? ilOffset line column (line + lines) (column + columns) document with
  | none => exact ⟨fun _ _ => rfl, fun _ => ⟨rfl, Nat.le_refl _⟩⟩
  | some found => exact follows_pure found

theorem follows_point {lastVisible : Option SequencePoint} (hplaced : Placed lastVisible)
    (ilOffset document : Nat) :
    Follows (point ilOffset document lastVisible) (readPoint ilOffset document lastVisible) := by
  refine follows_compressedUnsigned.bind fun lines ⟨_, _, hlines⟩ => ?_
  have hlines := Reader.compressedUnsigned_lt hlines
  -- The width is unsigned on a single line and signed otherwise.  What follows takes either.
  have hrest (columns : Int) (hlow : -0x20000000 ≤ columns) (hhigh : columns < 0x20000000) :
      Follows
        (if lines = 0 ∧ columns = 0 then pure (hidden ilOffset document)
          else span ilOffset document lines columns lastVisible)
        (if lines = 0 ∧ columns = 0 then pure (hidden ilOffset document)
          else readSpan ilOffset document lines columns lastVisible) := by
    by_cases hhidden : lines = 0 ∧ columns = 0
    · rw [if_pos hhidden, if_pos hhidden]
      exact follows_pure _
    · rw [if_neg hhidden, if_neg hhidden]
      exact follows_span hlines hlow hhigh hplaced ilOffset document
  by_cases hflat : lines = 0
  · rw [if_pos hflat, if_pos hflat]
    refine follows_compressedUnsigned.bind fun columns ⟨_, _, hcolumns⟩ => ?_
    have hcolumns := Reader.compressedUnsigned_lt hcolumns
    exact hrest columns (by omega) (by omega)
  · rw [if_neg hflat, if_neg hflat]
    refine follows_compressedSigned.bind fun columns ⟨_, _, hcolumns⟩ => ?_
    have hcolumns := Reader.compressedSigned_range hcolumns
    exact hrest columns (by omega) (by omega)

theorem advances_record {progress : Progress} (hplaced : Placed progress.lastVisible) :
    Advances (record progress) (readRecord progress) := by
  refine advances_compressedUnsigned.bind fun distance _ => ?_
  by_cases hchange : progress.started = true ∧ distance = 0
  · rw [if_pos hchange, if_pos hchange]
    exact follows_compressedUnsigned.bind fun document _ => follows_pure _
  · rw [if_neg hchange, if_neg hchange]
    by_cases hlimit : offsetLimit ≤ progress.ilOffset + distance
    · have hnone : ((Word.addNarrow? progress.ilOffset distance).filter
          fun sum => sum < offsetLimit) = none := by
        unfold Word.addNarrow?
        split
        · exact Option.filter_some_neg (by simpa using hlimit)
        · rfl
      rw [hnone, if_pos hlimit]
      exact ⟨fun _ _ => rfl, fun _ => ⟨rfl, Nat.le_refl _⟩⟩
    · have hsome : ((Word.addNarrow? progress.ilOffset distance).filter
          fun sum => sum < offsetLimit) = some (progress.ilOffset + distance) := by
        simp only [offsetLimit] at hlimit ⊢
        rw [Word.addNarrow?, if_pos (by omega)]
        exact Option.filter_some_pos (decide_eq_true (Nat.lt_of_not_le hlimit))
      rw [hsome, if_neg hlimit]
      exact (follows_point hplaced _ _).bind fun found _ => follows_pure _

theorem placed_of_readRecord {progress next : Progress} (hplaced : Placed progress.lastVisible)
    (hrecord : (readRecord progress).Yields next) : Placed next.lastVisible := by
  obtain ⟨cursor, after, hread⟩ := hrecord
  unfold readRecord at hread
  obtain ⟨distance, afterDistance, -, hread⟩ := Reader.bind_eq_ok hread
  by_cases hchange : progress.started = true ∧ distance = 0
  · rw [if_pos hchange] at hread
    obtain ⟨document, afterDocument, -, hread⟩ := Reader.bind_eq_ok hread
    obtain ⟨rfl, -⟩ := Reader.pure_eq_ok hread
    exact hplaced
  rw [if_neg hchange] at hread
  by_cases hlimit : offsetLimit ≤ progress.ilOffset + distance
  · rw [if_pos hlimit] at hread
    cases hread
  rw [if_neg hlimit] at hread
  obtain ⟨found, afterPoint, hpoint, hread⟩ := Reader.bind_eq_ok hread
  obtain ⟨rfl, -⟩ := Reader.pure_eq_ok hread
  obtain ⟨mark, hoffset, hspan, -, hmark⟩ := readPoint_eq_ok hpoint
  rw [hmark 0, Progress.addPoint]
  intro last hlast
  -- Only a visible point moves the place, and it has passed the check of its span.
  cases mark with
  | document number => cases hoffset
  | hidden offset => exact hplaced last hlast
  | visible offset startLine startColumn endLine endColumn =>
      have hvalid : ValidSpan startLine startColumn endLine endColumn := hspan
      have hline := hvalid.startLine_le_endLine
      have hlineLt := hvalid.endLine_lt
      have hcolumn := hvalid.startColumn_lt
      dsimp only at hlast
      split at hlast
      · cases hlast
        change startLine < offsetLimit ∧ startColumn < columnLimit
        omega
      · exact hplaced last hlast

theorem follows_points (document : Nat) : Follows (points document) (readBlob document) := by
  refine follows_compressedUnsigned.bind fun _ _ => ?_
  have hrecords (progress : Progress) (hplaced : Placed progress.lastVisible) :
      Follows (do return (← whileNext record progress).points.toList)
        (do return (← Reader.untilEnd readRecord progress).points.toList) :=
    (follows_whileNext (fun _ hplaced => advances_record hplaced)
      (fun _ _ hplaced hrecord => placed_of_readRecord hplaced hrecord) hplaced).bind
        fun _ _ => follows_pure _
  by_cases hdocument : document = 0
  · rw [if_pos hdocument, if_pos hdocument]
    exact follows_compressedUnsigned.bind fun first _ => hrecords _ placed_none
  · rw [if_neg hdocument, if_neg hdocument]
    exact hrecords _ placed_none

/-! ## Names -/

def namePart (blobs : ByteArray) (parts : Array String) : WordReader (Array String) := do
  let offset ← compressedUnsigned.under .invalidDocumentName
  let part ← lift (Guarded.blobAt blobs offset)
  let text ← ofExcept ((Text.decodeUtf8 part).mapError (.ofUtf8 .invalidDocumentName))
  return parts.push text

def name (blobs : ByteArray) : WordReader String := do
  let separator ← u8.under .invalidDocumentName
  if 0x80 ≤ separator then fail .invalidDocumentName
  let parts ← whileNext (namePart blobs) #[]
  return DocumentInfo.joinParts separator parts.toList

theorem advances_namePart {heaps : Heaps} (hsize : heaps.blobs.size < Word.limit)
    (parts : Array String) :
    Advances (namePart heaps.blobs parts) (DocumentInfo.readNamePart heaps parts) := by
  refine (advances_compressedUnsigned.under _).bind fun offset _ => ?_
  refine (follows_lift (Guarded.gives_blobAt hsize offset)).bind fun part _ => ?_
  exact (follows_ofExcept _).bind fun text _ => follows_pure _

theorem follows_name {heaps : Heaps} (hsize : heaps.blobs.size < Word.limit) :
    Follows (name heaps.blobs) (DocumentInfo.readName heaps) := by
  refine (follows_u8.under _).bind fun separator _ => follows_failIf _ _ fun _ => ?_
  have hparts : Follows (whileNext (namePart heaps.blobs) #[])
      (Reader.untilEnd (DocumentInfo.readNamePart heaps) #[]) :=
    follows_whileNext (fun parts (_ : True) => advances_namePart hsize parts)
      (fun _ _ _ _ => trivial) trivial
  exact hparts.bind fun parts _ => follows_pure _

end WordReader

/-! ## Blobs as a whole -/

namespace Guarded

theorem size_blobAt_le {heap blob : ByteArray} {offset : Nat}
    (hblob : PortablePdb.blobAt heap offset = .ok blob) : blob.size ≤ heap.size := by
  unfold PortablePdb.blobAt at hblob
  split at hblob
  · cases hblob
    exact Nat.zero_le _
  split at hblob
  · cases hblob
  obtain ⟨cursor, hcursor, hrun⟩ := Except.bind_eq_ok hblob
  obtain ⟨next, hread⟩ := Reader.run_eq_ok hrun
  obtain ⟨length, middle, hlength, hbytes⟩ := Reader.bind_eq_ok (Reader.under_eq_ok hread)
  obtain ⟨-, -, hunread⟩ := Reader.bytes_eq_ok hbytes
  have hbehind := (WordReader.follows_compressedUnsigned.behind cursor).remaining_le
  rw [Reader.outcome_of_ok hlength] at hbehind
  have hsize := congrArg List.length hunread
  rw [List.length_append, Cursor.length_unread, Array.length_toList, ByteArray.size_data] at hsize
  have hwindow := (sameWindow_slice hcursor).remaining
  simp only [Cursor.remaining, Cursor.ofBytes, ByteArray.size_extract] at hwindow hbehind hsize
  omega

theorem gives_points {heap blob : ByteArray} (hsize : heap.size < Word.limit) {offset : Nat}
    (hblob : PortablePdb.blobAt heap offset = .ok blob) (document : Nat) :
    Gives (run (WordReader.points document) blob) (SequencePoint.decode blob document) :=
  (WordReader.follows_points document).run (Nat.lt_of_le_of_lt (size_blobAt_le hblob) hsize)

def name (blobs : ByteArray) (offset : Nat) : Guarded String := do
  let blob ← blobAt blobs offset
  run (WordReader.name blobs) blob

theorem gives_name {heaps : Heaps} (hsize : heaps.blobs.size < Word.limit) (offset : Nat) :
    Gives (name heaps.blobs offset) (DocumentInfo.name heaps offset) :=
  (gives_blobAt hsize offset).bind fun _ hblob =>
    (WordReader.follows_name hsize).run (Nat.lt_of_le_of_lt (size_blobAt_le hblob) hsize)

end Guarded

end PortablePdb
