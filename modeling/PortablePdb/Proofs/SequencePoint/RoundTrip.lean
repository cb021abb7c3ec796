import PortablePdb.Proofs.Bytes.Reading
import PortablePdb.Proofs.SequencePoint.Encode
import PortablePdb.SequencePoint.Decode

/-!
# Sequence points read back

The writer keeps an `Origin` and the reader a `Progress`; the origin is a function of the progress.
A mark that follows the progress is written as one record, and the reader takes exactly that record
and moves on to the progress whose origin the writer moved on to.  The round trip of a list is the
induction over these steps.
-/

namespace PortablePdb.SequencePoint

open Reader

/-! ## Numbers of a record -/

theorem exists_reads_unsigned {value : Nat} (hvalue : value < 0x20000000) :
    ∃ field, unsigned value = .ok field ∧ field ≠ [] ∧ Reads compressedUnsigned field value := by
  obtain ⟨field, hencode, hnonempty, hreads⟩ := exists_reads_compressedUnsigned hvalue
  exact ⟨field, by rw [unsigned, hencode]; rfl, hnonempty, hreads⟩

theorem exists_reads_signed {value : Int} (hlow : -0x10000000 ≤ value)
    (hhigh : value < 0x10000000) :
    ∃ field, signed value = .ok field ∧ Reads compressedSigned field value := by
  obtain ⟨field, hencode, hreads⟩ := exists_reads_compressedSigned hlow hhigh
  exact ⟨field, by rw [signed, hencode]; rfl, hreads⟩

/-! ## Where the writer stands when the reader has come so far -/

namespace Progress

def origin (progress : Progress) : Origin where
  ilOffset := progress.ilOffset
  start := progress.lastVisible.map fun last => (last.startLine, last.startColumn)

def after (progress : Progress) : Mark → Progress
  | .document row => progress.changeDocument row
  | mark => progress.addPoint (mark.point progress.ilOffset progress.document)

/-- The marks can be written behind the records read so far. -/
structure Continues (progress : Progress) (marks : List Mark) : Prop where
  first : progress.started = false → (marks.head?.bind Mark.document?).isNone
  offset_zero : progress.started = false → progress.ilOffset = 0
  offset_above : progress.started = true →
    ∀ ilOffset ∈ marks.filterMap Mark.ilOffset?, progress.ilOffset < ilOffset
  offsets_increase : (marks.filterMap Mark.ilOffset?).Pairwise (· < ·)
  offset_lt : ∀ ilOffset ∈ marks.filterMap Mark.ilOffset?, ilOffset < offsetLimit
  document_lt : ∀ row ∈ marks.filterMap Mark.document?, row < 0x20000000
  spans : ∀ mark ∈ marks, mark.HasValidSpan
  lines : ((progress.lastVisible.map SequencePoint.startLine).toList ++
    marks.filterMap Mark.startLine?).IsChain NearLines
  startLine_lt : ∀ last ∈ progress.lastVisible, last.startLine < offsetLimit
  startColumn_lt : ∀ last ∈ progress.lastVisible, last.startColumn < columnLimit

end Progress

theorem isVisible_point {mark : Mark} {startLine : Nat} (hspan : mark.HasValidSpan)
    (hstart : mark.startLine? = some startLine) (ilOffset row : Nat) :
    (mark.point ilOffset row).isVisible = true := by
  cases mark with
  | visible offset line column endLine endColumn =>
      have hhidden : line ≠ hiddenLine := by
        have hlines := hspan.not_hiddenLine.1
        omega
      have hchange : line ≠ documentChangeLine := by
        have hlines := hspan.not_documentChangeLine.1
        omega
      simp [Mark.point, isVisible, kind, hhidden, hchange]
  | hidden offset => simp [Mark.startLine?] at hstart
  | document number => simp [Mark.startLine?] at hstart

/-! ## The parts of a record -/

theorem exists_reads_start {progress : Progress} {line column : Nat}
    (hline : line < 0x20000000) (hcolumn : column < 0x10000)
    (hlastLine : ∀ last ∈ progress.lastVisible, last.startLine < offsetLimit)
    (hlastColumn : ∀ last ∈ progress.lastVisible, last.startColumn < columnLimit)
    (hnear : ∀ last ∈ progress.lastVisible, NearLines last.startLine line) :
    ∃ field, encodeStart progress.origin line column = .ok field ∧
      Reads (readStart progress.lastVisible) field (line, column) := by
  cases hlast : progress.lastVisible with
  | none =>
      obtain ⟨lineField, hlineField, -, hreadsLine⟩ := exists_reads_unsigned hline
      obtain ⟨columnField, hcolumnField, -, hreadsColumn⟩ :=
        exists_reads_unsigned (Nat.lt_trans hcolumn (by decide : 0x10000 < 0x20000000))
      refine ⟨lineField ++ columnField, ?_, ?_⟩
      · simp only [encodeStart, Progress.origin, hlast, Option.map_none, hlineField, hcolumnField]
        rfl
      · exact hreadsLine.bind (hreadsColumn.bind_pure fun column => ((line : Int), (column : Int)))
  | some last =>
      have hlastLine := hlastLine last hlast
      have hlastColumn := hlastColumn last hlast
      have hnear := hnear last hlast
      simp only [offsetLimit, columnLimit] at hlastLine hlastColumn
      have hlines : distance last.startLine line = .ok ((line : Int) - last.startLine) :=
        distance_eq hlastLine hline
      have hcolumns : distance last.startColumn column =
          .ok ((column : Int) - last.startColumn) :=
        distance_eq (by omega) (by omega)
      obtain ⟨lineField, hlineField, hreadsLine⟩ := exists_reads_signed hnear.1 hnear.2
      obtain ⟨columnField, hcolumnField, hreadsColumn⟩ :=
        exists_reads_signed (by omega : -0x10000000 ≤ (column : Int) - last.startColumn) (by omega)
      refine ⟨lineField ++ columnField, ?_, ?_⟩
      · simp only [encodeStart, Progress.origin, hlast, Option.map_some, hlines, hlineField, hcolumns,
          hcolumnField, Except.ok_bind]
        rfl
      · have hreads : Reads (readStart (some last)) (lineField ++ columnField)
            (last.startLine + ((line : Int) - last.startLine),
              last.startColumn + ((column : Int) - last.startColumn)) :=
          hreadsLine.bind (hreadsColumn.bind_pure fun columns =>
            (last.startLine + ((line : Int) - last.startLine), last.startColumn + columns))
        rwa [Int.add_comm, Int.sub_add_cancel, Int.add_comm, Int.sub_add_cancel] at hreads

theorem visible?_of_validSpan {startLine startColumn endLine endColumn : Nat}
    (hspan : ValidSpan startLine startColumn endLine endColumn) (ilOffset row : Nat) :
    visible? ilOffset startLine startColumn endLine endColumn row =
      some ((Mark.visible ilOffset startLine startColumn endLine endColumn).point 0 row) := by
  simp only [visible?, if_pos hspan, Int.toNat_natCast, Mark.point]

theorem reads_zero : Reads compressedUnsigned [0] 0 := by
  obtain ⟨field, hfield, -, hreads⟩ := exists_reads_unsigned (by decide : 0 < 0x20000000)
  cases hfield
  exact hreads

theorem reads_hidden (ilOffset row : Nat) (lastVisible : Option SequencePoint) :
    Reads (readPoint ilOffset row lastVisible) [0, 0] (hidden ilOffset row) := by
  change Reads _ ([0] ++ [0]) _
  unfold readPoint
  refine reads_zero.bind ?_
  rw [if_pos rfl]
  refine reads_zero.bind_nil ?_
  rw [pure_bind]
  beta_reduce
  rw [if_pos ⟨rfl, rfl⟩]
  exact reads_pure _

/-- The width of a span on one line is written without a sign, any other with one. -/
def ReadsWidth (height : Nat) (field : List UInt8) (width : Int) : Prop :=
  if height = 0 then ∃ count : Nat, width = count ∧ Reads compressedUnsigned field count
  else Reads compressedSigned field width

theorem reads_visible {ilOffset row startLine startColumn endLine endColumn : Nat}
    {lastVisible : Option SequencePoint} {height width start : List UInt8}
    (hspan : ValidSpan startLine startColumn endLine endColumn)
    (hheight : Reads compressedUnsigned height (endLine - startLine))
    (hwidth : ReadsWidth (endLine - startLine) width ((endColumn : Int) - startColumn))
    (hstart : Reads (readStart lastVisible) start (startLine, startColumn)) :
    Reads (readPoint ilOffset row lastVisible) (height ++ (width ++ start))
      ((Mark.visible ilOffset startLine startColumn endLine endColumn).point 0 row) := by
  have hlines := hspan.startLine_le_endLine
  have hendLine : (startLine : Int) + (endLine - startLine : Nat) = endLine := by omega
  have hendColumn : (startColumn : Int) + ((endColumn : Int) - startColumn) = endColumn := by omega
  have hvisible := visible?_of_validSpan hspan ilOffset row
  rw [← hendLine, ← hendColumn] at hvisible
  have hspread : ¬(endLine - startLine = 0 ∧ (endColumn : Int) - startColumn = 0) := by
    rintro ⟨hheight, hwidth⟩
    have hwide := hspan.not_empty (by omega)
    omega
  unfold readPoint
  refine hheight.bind ?_
  by_cases hflat : endLine - startLine = 0
  · rw [ReadsWidth, if_pos hflat] at hwidth
    obtain ⟨count, hcount, hreads⟩ := hwidth
    rw [if_pos hflat]
    refine hreads.bind ?_
    rw [pure_bind, ← hcount]
    beta_reduce
    rw [if_neg hspread]
    refine hstart.bind_nil ?_
    dsimp only
    rw [hvisible]
    exact reads_pure _
  · rw [ReadsWidth, if_neg hflat] at hwidth
    rw [if_neg hflat]
    refine hwidth.bind ?_
    beta_reduce
    rw [if_neg hspread]
    refine hstart.bind_nil ?_
    dsimp only
    rw [hvisible]
    exact reads_pure _

theorem exists_reads_width {startLine startColumn endLine endColumn : Nat}
    (hspan : ValidSpan startLine startColumn endLine endColumn) :
    ∃ field, encodeWidth (endLine - startLine) ((endColumn : Int) - startColumn) = .ok field ∧
      ReadsWidth (endLine - startLine) field ((endColumn : Int) - startColumn) := by
  have hstart := hspan.startColumn_lt
  have hend := hspan.endColumn_lt
  have hlines := hspan.startLine_le_endLine
  simp only [columnLimit] at hstart hend
  by_cases hflat : endLine - startLine = 0
  · have hwide := hspan.not_empty (by omega)
    have hcount : ((endColumn : Int) - startColumn) % 0x100000000 =
        (endColumn - startColumn : Nat) := by
      rw [Int.emod_eq_of_lt (by omega) (by omega)]
      omega
    obtain ⟨field, hfield, -, hreads⟩ :=
      exists_reads_unsigned (by omega : endColumn - startColumn < 0x20000000)
    refine ⟨field, ?_, ?_⟩
    · rw [encodeWidth, if_pos hflat, hcount, Int.toNat_natCast, hfield]
    · rw [ReadsWidth, if_pos hflat]
      exact ⟨endColumn - startColumn, by omega, hreads⟩
  · obtain ⟨field, hfield, hreads⟩ :=
      exists_reads_signed (by omega : -0x10000000 ≤ (endColumn : Int) - startColumn) (by omega)
    refine ⟨field, ?_, ?_⟩
    · rw [encodeWidth, if_neg hflat, hfield]
    · rw [ReadsWidth, if_neg hflat]
      exact hreads

/-! ## One record -/

theorem reads_documentChange {progress : Progress} {row : Nat} {field : List UInt8}
    (hstarted : progress.started = true) (hrow : Reads compressedUnsigned field row) :
    Reads (readRecord progress) ([0] ++ field) (progress.changeDocument row) := by
  unfold readRecord
  refine reads_zero.bind ?_
  rw [if_pos ⟨hstarted, rfl⟩]
  exact hrow.bind_pure progress.changeDocument

theorem reads_pointRecord {progress : Progress} {ilOffset : Nat} {point : SequencePoint}
    {offset rest : List UInt8} (habove : progress.started = true → progress.ilOffset < ilOffset)
    (hreached : progress.ilOffset ≤ ilOffset) (hlimit : ilOffset < offsetLimit)
    (hoffset : Reads compressedUnsigned offset (ilOffset - progress.ilOffset))
    (hpoint : Reads (readPoint ilOffset progress.document progress.lastVisible) rest point) :
    Reads (readRecord progress) (offset ++ rest) (progress.addPoint point) := by
  have hsame : progress.ilOffset + (ilOffset - progress.ilOffset) = ilOffset := by omega
  have hpointRecord : ¬(progress.started = true ∧ ilOffset - progress.ilOffset = 0) := by
    rintro ⟨hstarted, hzero⟩
    have hmore := habove hstarted
    omega
  unfold readRecord
  refine hoffset.bind ?_
  rw [if_neg hpointRecord]
  simp only [hsame]
  rw [if_neg (Nat.not_le.2 hlimit)]
  exact hpoint.bind_pure progress.addPoint

theorem Progress.Continues.started_of_document {progress : Progress} {row : Nat}
    {marks : List Mark} (hcontinues : progress.Continues (.document row :: marks)) :
    progress.started = true := by
  by_contra hnot
  have hfirst := hcontinues.first (by simpa using hnot)
  simp [Mark.document?] at hfirst

theorem Progress.Continues.ilOffset_le {progress : Progress} {marks : List Mark} {ilOffset : Nat}
    (hcontinues : progress.Continues marks) (hmem : ilOffset ∈ marks.filterMap Mark.ilOffset?) :
    progress.ilOffset ≤ ilOffset := by
  cases hstarted : progress.started with
  | false =>
      rw [hcontinues.offset_zero hstarted]
      exact Nat.zero_le ilOffset
  | true => exact Nat.le_of_lt (hcontinues.offset_above hstarted ilOffset hmem)

theorem Progress.Continues.nearLines {progress : Progress} {mark : Mark} {marks : List Mark}
    {startLine : Nat} (hcontinues : progress.Continues (mark :: marks))
    (hstart : mark.startLine? = some startLine) :
    ∀ last ∈ progress.lastVisible, NearLines last.startLine startLine := by
  intro last hlast
  have hlines := hcontinues.lines
  rw [Option.mem_def.1 hlast, List.filterMap_cons_some hstart] at hlines
  exact (List.isChain_cons_cons.1 hlines).1

theorem Progress.lastVisible_after_visible {progress : Progress}
    {ilOffset startLine startColumn endLine endColumn : Nat}
    (hspan : (Mark.visible ilOffset startLine startColumn endLine endColumn).HasValidSpan) :
    (progress.after (.visible ilOffset startLine startColumn endLine endColumn)).lastVisible =
      some ((Mark.visible ilOffset startLine startColumn endLine endColumn).point
        progress.ilOffset progress.document) := by
  have hvisible := isVisible_point hspan rfl progress.ilOffset progress.document
  simp only [Progress.after, Progress.addPoint, if_pos hvisible]

theorem Progress.origin_after_visible {progress : Progress}
    {ilOffset startLine startColumn endLine endColumn : Nat}
    (hspan : (Mark.visible ilOffset startLine startColumn endLine endColumn).HasValidSpan) :
    (progress.after (.visible ilOffset startLine startColumn endLine endColumn)).origin =
      { ilOffset, start := some (startLine, startColumn) } := by
  rw [Progress.origin, Progress.lastVisible_after_visible hspan]
  rfl

theorem Progress.ilOffset_after (progress : Progress) (mark : Mark) :
    (progress.after mark).ilOffset = mark.ilOffset?.getD progress.ilOffset := by
  cases mark <;> rfl

theorem Progress.document_after (progress : Progress) (mark : Mark) :
    (progress.after mark).document = mark.document?.getD progress.document := by
  cases mark <;> rfl

theorem Progress.points_after (progress : Progress) (mark : Mark) :
    (progress.after mark).points =
      progress.points.push
        (mark.point progress.ilOffset (mark.document?.getD progress.document)) := by
  cases mark <;> rfl

/-- The offset of a mark is not before the last one.  It is written as the distance from there, and
the reader of what follows it gets the offset itself. -/
theorem Progress.Continues.exists_offset {progress : Progress} {marks : List Mark} {ilOffset : Nat}
    (hcontinues : progress.Continues marks) (hmem : ilOffset ∈ marks.filterMap Mark.ilOffset?) :
    ∃ offset, advance progress.ilOffset ilOffset = .ok (ilOffset - progress.ilOffset) ∧
      unsigned (ilOffset - progress.ilOffset) = .ok offset ∧ offset ≠ [] ∧
      ∀ rest point, Reads (readPoint ilOffset progress.document progress.lastVisible) rest point →
        Reads (readRecord progress) (offset ++ rest) (progress.addPoint point) := by
  have hlimit := hcontinues.offset_lt ilOffset hmem
  obtain ⟨offset, hoffset, hnonempty, hreads⟩ :=
    exists_reads_unsigned (Nat.lt_of_le_of_lt (Nat.sub_le ilOffset progress.ilOffset) hlimit)
  refine ⟨offset, advance_eq (hcontinues.ilOffset_le hmem), hoffset, hnonempty,
    fun rest point hpoint => ?_⟩
  exact reads_pointRecord (fun hstarted => hcontinues.offset_above hstarted ilOffset hmem)
    (hcontinues.ilOffset_le hmem) hlimit hreads hpoint

theorem exists_visibleRecord {progress : Progress} {marks : List Mark}
    {ilOffset startLine startColumn endLine endColumn : Nat}
    (hcontinues : progress.Continues
      (.visible ilOffset startLine startColumn endLine endColumn :: marks)) :
    ∃ record,
      encodeMark progress.origin (.visible ilOffset startLine startColumn endLine endColumn) =
        .ok (record,
          (progress.after (.visible ilOffset startLine startColumn endLine endColumn)).origin) ∧
      record ≠ [] ∧
      Reads (readRecord progress) record
        (progress.after (.visible ilOffset startLine startColumn endLine endColumn)) := by
  have hspan : ValidSpan startLine startColumn endLine endColumn :=
    hcontinues.spans _ List.mem_cons_self
  have hendLine := hspan.endLine_lt
  have hlines := hspan.startLine_le_endLine
  have hcolumn := hspan.startColumn_lt
  have hendColumn := hspan.endColumn_lt
  simp only [offsetLimit, columnLimit] at hendLine hcolumn hendColumn
  have hmem : ilOffset ∈ (Mark.visible ilOffset startLine startColumn endLine endColumn ::
      marks).filterMap Mark.ilOffset? := by
    simp [Mark.ilOffset?]
  obtain ⟨offset, hadvance, hoffset, hnonempty, hrecord⟩ := hcontinues.exists_offset hmem
  have hheightOf : advance startLine endLine = .ok (endLine - startLine) :=
    advance_eq (by omega)
  have hwidthOf : distance startColumn endColumn = .ok ((endColumn : Int) - startColumn) :=
    distance_eq (by omega) (by omega)
  obtain ⟨height, hheight, -, hreadsHeight⟩ :=
    exists_reads_unsigned (by omega : endLine - startLine < 0x20000000)
  obtain ⟨width, hwidth, hreadsWidth⟩ := exists_reads_width hspan
  obtain ⟨start, hstart, hreadsStart⟩ :=
    exists_reads_start (by omega : startLine < 0x20000000) (by omega : startColumn < 0x10000)
      hcontinues.startLine_lt hcontinues.startColumn_lt (hcontinues.nearLines rfl)
  refine ⟨offset ++ height ++ width ++ start, ?_, by simp [hnonempty], ?_⟩
  · have horigin : progress.origin.ilOffset = progress.ilOffset := rfl
    rw [Progress.origin_after_visible hspan]
    simp only [encodeMark, horigin, hadvance, hoffset, hheightOf, hwidthOf, hheight, hwidth, hstart,
      Except.ok_bind]
    rfl
  · rw [List.append_assoc, List.append_assoc]
    exact hrecord _ _ (reads_visible hspan hreadsHeight hreadsWidth hreadsStart)

/-- A mark that can be written is read back from its record, and both sides move on alike. -/
theorem exists_record {progress : Progress} {mark : Mark} {marks : List Mark}
    (hcontinues : progress.Continues (mark :: marks)) :
    ∃ record, encodeMark progress.origin mark = .ok (record, (progress.after mark).origin) ∧
      record ≠ [] ∧ Reads (readRecord progress) record (progress.after mark) := by
  cases mark with
  | document row =>
      have hrow : row < 0x20000000 := hcontinues.document_lt row (by simp [Mark.document?])
      obtain ⟨field, hfield, -, hreads⟩ := exists_reads_unsigned hrow
      refine ⟨0 :: field, ?_, by simp, reads_documentChange hcontinues.started_of_document hreads⟩
      simp only [encodeMark, hfield]
      rfl
  | hidden ilOffset =>
      have hmem : ilOffset ∈ (Mark.hidden ilOffset :: marks).filterMap Mark.ilOffset? := by
        simp [Mark.ilOffset?]
      obtain ⟨offset, hadvance, hoffset, hnonempty, hrecord⟩ := hcontinues.exists_offset hmem
      refine ⟨offset ++ [0, 0], ?_, by simp [hnonempty], ?_⟩
      · have horigin : progress.origin.ilOffset = progress.ilOffset := rfl
        simp only [encodeMark, horigin, hadvance, hoffset, Except.ok_bind]
        rfl
      · exact hrecord _ _ (reads_hidden ilOffset progress.document progress.lastVisible)
  | visible ilOffset startLine startColumn endLine endColumn =>
      exact exists_visibleRecord hcontinues

/-! ## All records -/

theorem Progress.Continues.tail_of_document {progress : Progress} {row : Nat} {marks : List Mark}
    (hcontinues : progress.Continues (.document row :: marks)) :
    (progress.changeDocument row).Continues marks where
  first hnot := by
    have hstarted : (progress.changeDocument row).started = true := hcontinues.started_of_document
    simp [hstarted] at hnot
  offset_zero := hcontinues.offset_zero
  offset_above := hcontinues.offset_above
  offsets_increase := hcontinues.offsets_increase
  offset_lt := hcontinues.offset_lt
  document_lt other hother := hcontinues.document_lt other (List.mem_cons_of_mem row hother)
  spans mark hmark := hcontinues.spans mark (List.mem_cons_of_mem _ hmark)
  lines := hcontinues.lines
  startLine_lt := hcontinues.startLine_lt
  startColumn_lt := hcontinues.startColumn_lt

/-- Behind a hidden or visible mark only the last visible point can differ. -/
theorem Progress.Continues.tail_of_point {progress next : Progress} {mark : Mark}
    {marks : List Mark} {ilOffset : Nat} (hcontinues : progress.Continues (mark :: marks))
    (hoffset : mark.ilOffset? = some ilOffset) (hilOffset : next.ilOffset = ilOffset)
    (hstarted : next.started = true)
    (hlines : ((next.lastVisible.map SequencePoint.startLine).toList ++
      marks.filterMap Mark.startLine?).IsChain NearLines)
    (hline : ∀ last ∈ next.lastVisible, last.startLine < offsetLimit)
    (hcolumn : ∀ last ∈ next.lastVisible, last.startColumn < columnLimit) :
    next.Continues marks where
  first hnot := by simp [hstarted] at hnot
  offset_zero hnot := by simp [hstarted] at hnot
  offset_above := by
    have hincrease := hcontinues.offsets_increase
    rw [List.filterMap_cons_some hoffset] at hincrease
    intro _ other hother
    rw [hilOffset]
    exact List.rel_of_pairwise_cons hincrease hother
  offsets_increase := by
    have hincrease := hcontinues.offsets_increase
    rw [List.filterMap_cons_some hoffset] at hincrease
    exact hincrease.of_cons
  offset_lt other hother := by
    refine hcontinues.offset_lt other ?_
    rw [List.filterMap_cons_some hoffset]
    exact List.mem_cons_of_mem ilOffset hother
  document_lt row hrow := by
    refine hcontinues.document_lt row ?_
    obtain ⟨other, hother, hnumber⟩ := List.mem_filterMap.1 hrow
    exact List.mem_filterMap.2 ⟨other, List.mem_cons_of_mem mark hother, hnumber⟩
  spans other hother := hcontinues.spans other (List.mem_cons_of_mem mark hother)
  lines := hlines
  startLine_lt := hline
  startColumn_lt := hcolumn

theorem Progress.Continues.tail {progress : Progress} {mark : Mark} {marks : List Mark}
    (hcontinues : progress.Continues (mark :: marks)) :
    (progress.after mark).Continues marks := by
  have hspan := hcontinues.spans mark List.mem_cons_self
  cases mark with
  | document row => exact hcontinues.tail_of_document
  | hidden ilOffset =>
      exact hcontinues.tail_of_point rfl rfl rfl hcontinues.lines hcontinues.startLine_lt
        hcontinues.startColumn_lt
  | visible ilOffset startLine startColumn endLine endColumn =>
      have hlast : (progress.after _).lastVisible = _ := Progress.lastVisible_after_visible hspan
      have hlines := hcontinues.lines.right_of_append
      have hendLine := hspan.endLine_lt
      have hheight := hspan.startLine_le_endLine
      have hcolumn := hspan.startColumn_lt
      refine hcontinues.tail_of_point rfl rfl rfl ?_ ?_ ?_
      · rw [hlast]
        exact hlines
      · intro last hmem
        rw [hlast, Option.mem_some_iff] at hmem
        subst hmem
        change startLine < offsetLimit
        omega
      · intro last hmem
        rw [hlast, Option.mem_some_iff] at hmem
        subst hmem
        change startColumn < columnLimit
        omega

theorem exists_records {progress : Progress} {marks : List Mark}
    (hcontinues : progress.Continues marks) :
    ∃ bytes, encodeMarks progress.origin marks = .ok bytes ∧
      ReadsAll (untilEnd readRecord progress) bytes (marks.foldl Progress.after progress) := by
  induction marks generalizing progress with
  | nil => exact ⟨[], rfl, readsAll_untilEnd_nil readRecord progress⟩
  | cons mark marks ih =>
      obtain ⟨record, hrecord, hnonempty, hreads⟩ := exists_record hcontinues
      obtain ⟨bytes, hbytes, hrest⟩ := ih hcontinues.tail
      refine ⟨record ++ bytes, ?_, readsAll_untilEnd_cons hnonempty hreads hrest⟩
      simp only [encodeMarks, hrecord]
      change (encodeMarks (progress.after mark).origin marks >>= fun rest =>
        .ok (record ++ rest)) = _
      rw [hbytes]
      rfl

theorem points_foldl_after (progress : Progress) (marks : List Mark) :
    (marks.foldl Progress.after progress).points.toList =
      progress.points.toList ++ pointsFrom progress.ilOffset progress.document marks := by
  induction marks generalizing progress with
  | nil => simp
  | cons mark marks ih =>
      rw [List.foldl_cons, ih, Progress.points_after, Progress.ilOffset_after,
        Progress.document_after, pointsFrom_cons, Array.toList_push, List.append_assoc]
      rfl

theorem exists_points {progress : Progress} {marks : List Mark}
    (hcontinues : progress.Continues marks) :
    ∃ bytes, encodeMarks progress.origin marks = .ok bytes ∧
      ReadsAll (do return (← untilEnd readRecord progress).points.toList) bytes
        (progress.points.toList ++ pointsFrom progress.ilOffset progress.document marks) := by
  obtain ⟨bytes, hbytes, hreads⟩ := exists_records hcontinues
  refine ⟨bytes, hbytes, ?_⟩
  rw [← points_foldl_after]
  exact hreads.bind_pure fun last => last.points.toList

/-! ## The whole blob -/

theorem Encodable.continues {row : Nat} {marks : List Mark} (hencodable : Encodable row marks)
    (hrow : row ≠ 0) : (Progress.start row).Continues marks where
  first _ := by
    have hfirst := hencodable.first
    rwa [behindInitial, if_neg hrow] at hfirst
  offset_zero _ := rfl
  offset_above hstarted := by cases hstarted
  offsets_increase := hencodable.offsets_increase
  offset_lt := hencodable.offset_lt
  document_lt := hencodable.document_lt
  spans := hencodable.spans
  lines := hencodable.lines
  startLine_lt := by simp [Progress.start]
  startColumn_lt := by simp [Progress.start]

theorem Encodable.continues_initial {initial : Nat} {marks : List Mark}
    (hencodable : Encodable 0 (.document initial :: marks)) :
    ((Progress.start 0).changeDocument initial).Continues marks where
  first _ := hencodable.first
  offset_zero _ := rfl
  offset_above hstarted := by cases hstarted
  offsets_increase := hencodable.offsets_increase
  offset_lt := hencodable.offset_lt
  document_lt row hrow := hencodable.document_lt row (List.mem_cons_of_mem initial hrow)
  spans mark hmark := hencodable.spans mark (List.mem_cons_of_mem _ hmark)
  lines := hencodable.lines
  startLine_lt := by simp [Progress.start, Progress.changeDocument]
  startColumn_lt := by simp [Progress.start, Progress.changeDocument]

theorem exists_blob {row : Nat} {marks : List Mark} (hencodable : Encodable row marks) :
    ∃ bytes, encode row marks = .ok bytes ∧
      ReadsAll (readBlob row) bytes (pointsOf row marks) := by
  by_cases hrow : row = 0
  · subst hrow
    obtain ⟨initial, rest, rfl⟩ := hencodable.exists_initial
    obtain ⟨field, hfield, -, hreads⟩ :=
      exists_reads_unsigned (hencodable.document_lt initial (by simp [Mark.document?]))
    obtain ⟨bytes, hbytes, hpoints⟩ := exists_points hencodable.continues_initial
    refine ⟨[0] ++ (field ++ bytes), ?_, ?_⟩
    · change (unsigned initial >>= fun field => encodeMarks ⟨0, none⟩ rest >>= fun bytes =>
        .ok ([0] ++ field ++ bytes)) = _
      rw [hfield]
      change (encodeMarks ⟨0, none⟩ rest >>= fun bytes => .ok ([0] ++ field ++ bytes)) = _
      rw [show encodeMarks ⟨0, none⟩ rest = .ok bytes from hbytes]
      rfl
    · unfold readBlob
      refine reads_zero.bind_readsAll ?_
      rw [if_pos rfl]
      refine hreads.bind_readsAll ?_
      rw [pure_bind]
      rw [pointsOf, pointsFrom_cons]
      exact hpoints
  · obtain ⟨bytes, hbytes, hpoints⟩ := exists_points (hencodable.continues hrow)
    refine ⟨[0] ++ bytes, ?_, ?_⟩
    · simp only [encode, if_neg hrow]
      change (encodeMarks ⟨0, none⟩ marks >>= fun bytes => .ok ([0] ++ bytes)) = _
      rw [show encodeMarks ⟨0, none⟩ marks = .ok bytes from hbytes]
      rfl
    · unfold readBlob
      refine reads_zero.bind_readsAll ?_
      rw [if_neg hrow, pure_bind]
      exact hpoints

end PortablePdb.SequencePoint
