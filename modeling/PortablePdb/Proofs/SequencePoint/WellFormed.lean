import PortablePdb.Proofs.Bytes.Success
import PortablePdb.Proofs.SequencePoint.RoundTrip

/-!
# Whatever is decoded is well formed

The bytes of a blob are arbitrary: numbers may take more bytes than they need, differences may lead
anywhere.  Still, each record that is accepted is the record of a mark that may follow the records
before it, so the points of a blob are the points of a list of marks that can be encoded.
-/

namespace PortablePdb.SequencePoint

open Reader

/-! ## What a list of points can satisfy -/

/-- The points that tie an offset to code, hidden ones included. -/
def codePoints (points : List SequencePoint) : List SequencePoint :=
  points.filter fun point => !point.isDocumentChange

/-- The offset of the last point in code, or else zero. -/
def lastOffset (points : List SequencePoint) : Nat :=
  ((codePoints points).map ilOffset).getLast?.getD 0

/-- The document of the last document change, or else `row`. -/
def lastDocument (row : Nat) (points : List SequencePoint) : Nat :=
  ((points.filter isDocumentChange).map document).getLast?.getD row

/-- The points of a method whose row names the document `row`. -/
structure WellFormed (row : Nat) (points : List SequencePoint) : Prop where
  starts_with_document_iff :
    (∃ first ∈ points.head?, first.isDocumentChange ∧ first.ilOffset = 0) ↔ row = 0
  /-- Before the first point in code only the first point changes the document. -/
  change_behind_code : ∀ i point, points[i]? = some point → point.isDocumentChange →
    codePoints (points.take i) = [] → i = 0
  offsets_increase : ((codePoints points).map ilOffset).Pairwise (· < ·)
  offset_lt : ∀ point ∈ codePoints points, point.ilOffset < offsetLimit
  offset_of_change : ∀ i point, points[i]? = some point → point.isDocumentChange →
    point.ilOffset = lastOffset (points.take i)
  document_eq : ∀ i point, points[i]? = some point →
    point.document = lastDocument row (points.take (i + 1))
  spans : ∀ point ∈ points, point.isVisible →
    ValidSpan point.startLine point.startColumn point.endLine point.endColumn

/-- The mark that asks for a point. -/
def mark (point : SequencePoint) : Mark :=
  match point.kind with
  | .visible => .visible point.ilOffset point.startLine point.startColumn point.endLine
      point.endColumn
  | .hidden => .hidden point.ilOffset
  | .documentChange => .document point.document

/-! ## The points of marks with valid spans -/

theorem kind_point {mark : Mark} (hspan : mark.HasValidSpan) (ilOffset row : Nat) :
    (mark.point ilOffset row).kind =
      match mark with
      | .visible .. => .visible
      | .hidden _ => .hidden
      | .document _ => .documentChange := by
  cases mark with
  | visible offset startLine startColumn endLine endColumn =>
      have hvisible := isVisible_point hspan rfl ilOffset row
      simpa only [isVisible, beq_iff_eq] using hvisible
  | hidden offset => rfl
  | document number => rfl

theorem isDocumentChange_point {mark : Mark} (hspan : mark.HasValidSpan) (ilOffset row : Nat) :
    (mark.point ilOffset row).isDocumentChange = mark.document?.isSome := by
  rw [isDocumentChange, kind_point hspan]
  cases mark <;> rfl

theorem mark_point {mark : Mark} (hspan : mark.HasValidSpan) (ilOffset row : Nat) :
    (mark.point ilOffset row).mark = mark := by
  rw [SequencePoint.mark, kind_point hspan]
  cases mark <;> rfl

section Points

variable {ilOffset row : Nat} {marks : List Mark}

theorem map_mark_pointsFrom (hspans : ∀ mark ∈ marks, mark.HasValidSpan) :
    (pointsFrom ilOffset row marks).map mark = marks := by
  induction marks generalizing ilOffset row with
  | nil => rfl
  | cons first rest ih =>
      have hrest := fun other hother => hspans other (List.mem_cons_of_mem first hother)
      rw [pointsFrom_cons, List.map_cons, ih hrest, mark_point (hspans first List.mem_cons_self)]

/-- Points are selected, and give a number, as their marks do. -/
theorem map_filter_pointsFrom {select : SequencePoint → Bool} {value : SequencePoint → Nat}
    {view : Mark → Option Nat}
    (hselect : ∀ mark ∈ marks, ∀ ilOffset row,
      select (mark.point ilOffset row) = (view mark).isSome)
    (hvalue : ∀ mark ∈ marks, ∀ ilOffset row, ∀ found ∈ view mark,
      value (mark.point ilOffset row) = found) :
    ((pointsFrom ilOffset row marks).filter select).map value = marks.filterMap view := by
  induction marks generalizing ilOffset row with
  | nil => rfl
  | cons first rest ih =>
      have htail := @ih (first.ilOffset?.getD ilOffset) (first.document?.getD row)
        (fun other hother => hselect other (List.mem_cons_of_mem first hother))
        (fun other hother => hvalue other (List.mem_cons_of_mem first hother))
      have hhead := hselect first List.mem_cons_self ilOffset (first.document?.getD row)
      rw [pointsFrom_cons, List.filter_cons, hhead]
      cases hview : view first with
      | none => rw [List.filterMap_cons_none hview, ← htail]; rfl
      | some found =>
          have hfound := hvalue first List.mem_cons_self ilOffset (first.document?.getD row) found
            hview
          rw [List.filterMap_cons_some hview, ← htail, ← hfound]
          rfl

theorem map_ilOffset_codePoints (hspans : ∀ mark ∈ marks, mark.HasValidSpan) :
    (codePoints (pointsFrom ilOffset row marks)).map SequencePoint.ilOffset =
      marks.filterMap Mark.ilOffset? := by
  refine map_filter_pointsFrom (fun mark hmark ilOffset row => ?_) (fun mark _ ilOffset row => ?_)
  · rw [isDocumentChange_point (hspans mark hmark)]
    cases mark <;> rfl
  · cases mark <;> simp [Mark.ilOffset?, Mark.point, hidden]

theorem map_document_changes (hspans : ∀ mark ∈ marks, mark.HasValidSpan) :
    ((pointsFrom ilOffset row marks).filter isDocumentChange).map document =
      marks.filterMap Mark.document? := by
  refine map_filter_pointsFrom (fun mark hmark ilOffset row => ?_) (fun mark _ ilOffset row => ?_)
  · exact isDocumentChange_point (hspans mark hmark) ilOffset row
  · cases mark <;> simp [Mark.document?, Mark.point, documentChange]

theorem take_pointsFrom (ilOffset row count : Nat) (marks : List Mark) :
    (pointsFrom ilOffset row marks).take count = pointsFrom ilOffset row (marks.take count) := by
  induction marks generalizing ilOffset row count with
  | nil => simp
  | cons first rest ih =>
      cases count with
      | zero => rfl
      | succ count => rw [pointsFrom_cons, List.take_succ_cons, List.take_succ_cons, ih,
          pointsFrom_cons]

theorem getElem?_pointsFrom (ilOffset row i : Nat) (marks : List Mark) :
    (pointsFrom ilOffset row marks)[i]? = marks[i]?.map fun mark =>
      mark.point (latestOffset ilOffset (marks.take i))
        (latestDocument row (marks.take (i + 1))) := by
  rw [pointsFrom, List.getElem?_mapIdx]

theorem document_point_getElem? {i : Nat} {mark : Mark} (hmark : marks[i]? = some mark) :
    (mark.point ilOffset (latestDocument row (marks.take (i + 1)))).document =
      latestDocument row (marks.take (i + 1)) := by
  cases mark with
  | visible offset startLine startColumn endLine endColumn => rfl
  | hidden offset => rfl
  | document number =>
      rw [latestDocument, List.take_add_one, hmark]
      simp [Mark.document?, Mark.point, documentChange]

end Points

/-! ## The points of marks that can be encoded -/

section Encodable

variable {row : Nat} {marks : List Mark}

theorem exists_mark_of_getElem? {i : Nat} {point : SequencePoint}
    (hpoint : (pointsOf row marks)[i]? = some point) :
    ∃ mark, marks[i]? = some mark ∧
      point = mark.point (latestOffset 0 (marks.take i))
        (latestDocument row (marks.take (i + 1))) := by
  rw [pointsOf, getElem?_pointsFrom] at hpoint
  obtain ⟨mark, hmark, rfl⟩ := Option.map_eq_some_iff.1 hpoint
  exact ⟨mark, hmark, rfl⟩

theorem lastOffset_take_pointsOf (hspans : ∀ mark ∈ marks, mark.HasValidSpan) (count : Nat) :
    lastOffset ((pointsOf row marks).take count) = latestOffset 0 (marks.take count) := by
  have htake : ∀ mark ∈ marks.take count, mark.HasValidSpan :=
    fun mark hmark => hspans mark (List.mem_of_mem_take hmark)
  rw [lastOffset, pointsOf, take_pointsFrom, map_ilOffset_codePoints htake, latestOffset]

theorem lastDocument_take_pointsOf (hspans : ∀ mark ∈ marks, mark.HasValidSpan) (count : Nat) :
    lastDocument row ((pointsOf row marks).take count) = latestDocument row (marks.take count) := by
  have htake : ∀ mark ∈ marks.take count, mark.HasValidSpan :=
    fun mark hmark => hspans mark (List.mem_of_mem_take hmark)
  rw [lastDocument, pointsOf, take_pointsFrom, map_document_changes htake, latestDocument]

theorem document?_isSome_of_codePoints_eq_nil {i j : Nat} {mark : Mark}
    (hspans : ∀ mark ∈ marks, mark.HasValidSpan)
    (hnone : codePoints ((pointsOf row marks).take i) = []) (hj : j < i)
    (hmark : marks[j]? = some mark) : mark.document?.isSome := by
  have htake : ∀ mark ∈ marks.take i, mark.HasValidSpan :=
    fun mark hmark => hspans mark (List.mem_of_mem_take hmark)
  have hoffsets := @map_ilOffset_codePoints 0 row _ htake
  rw [← take_pointsFrom, ← pointsOf, hnone, List.map_nil] at hoffsets
  have hmem : mark ∈ marks.take i :=
    List.mem_of_getElem? (by rw [List.getElem?_take_of_lt hj, hmark])
  have hoffset := List.filterMap_eq_nil_iff.1 hoffsets.symm mark hmem
  cases mark with
  | visible offset startLine startColumn endLine endColumn => cases hoffset
  | hidden offset => cases hoffset
  | document number => rfl

theorem head?_behindInitial (row : Nat) (marks : List Mark) :
    (behindInitial row marks).head? = marks[if row = 0 then 1 else 0]? := by
  unfold behindInitial
  split
  · rw [List.head?_tail]
  · rw [List.head?_eq_getElem?]

/-- Marks that can be encoded start with at most one document. -/
theorem Encodable.eq_zero_of_documents (hencodable : Encodable row marks) {i : Nat}
    (hi : i < marks.length)
    (hdocuments : ∀ j ≤ i, ∀ mark, marks[j]? = some mark → mark.document?.isSome) : i = 0 := by
  by_contra hpos
  have hfirst : (if row = 0 then 1 else 0) ≤ i := by
    split <;> omega
  have hinside : (if row = 0 then 1 else 0) < marks.length := Nat.lt_of_le_of_lt hfirst hi
  have hdocument := hdocuments _ hfirst _ (List.getElem?_eq_getElem hinside)
  have hnone := hencodable.first
  rw [head?_behindInitial, List.getElem?_eq_getElem hinside, Option.bind_some] at hnone
  rw [Option.isNone_iff_eq_none.1 hnone] at hdocument
  cases hdocument

theorem Encodable.starts_with_document_iff (hencodable : Encodable row marks) :
    (∃ first ∈ (pointsOf row marks).head?, first.isDocumentChange ∧ first.ilOffset = 0) ↔
      row = 0 := by
  constructor
  · rintro ⟨first, hhead, hchange, -⟩
    by_contra hrow
    rw [Option.mem_def, List.head?_eq_getElem?] at hhead
    obtain ⟨mark, hmark, rfl⟩ := exists_mark_of_getElem? hhead
    rw [isDocumentChange_point (hencodable.spans mark (List.mem_of_getElem? hmark))] at hchange
    have hnone := hencodable.first
    rw [head?_behindInitial, if_neg hrow, hmark, Option.bind_some] at hnone
    rw [Option.isNone_iff_eq_none.1 hnone] at hchange
    cases hchange
  · rintro rfl
    obtain ⟨initial, rest, rfl⟩ := hencodable.exists_initial
    refine ⟨documentChange 0 initial, ?_, rfl, rfl⟩
    rw [pointsOf, pointsFrom_cons]
    rfl

theorem Encodable.wellFormed (hencodable : Encodable row marks) :
    WellFormed row (pointsOf row marks) where
  starts_with_document_iff := hencodable.starts_with_document_iff
  change_behind_code i point hpoint hchange hnone := by
    obtain ⟨mark, hmark, rfl⟩ := exists_mark_of_getElem? hpoint
    have hspans := hencodable.spans
    rw [isDocumentChange_point (hspans mark (List.mem_of_getElem? hmark))] at hchange
    obtain ⟨hi, -⟩ := List.getElem?_eq_some_iff.1 hmark
    refine hencodable.eq_zero_of_documents hi fun j hj other hother => ?_
    rcases Nat.lt_or_eq_of_le hj with hbefore | rfl
    · exact document?_isSome_of_codePoints_eq_nil hspans hnone hbefore hother
    · rw [hmark, Option.some.injEq] at hother
      exact hother ▸ hchange
  offsets_increase := by
    rw [pointsOf, map_ilOffset_codePoints hencodable.spans]
    exact hencodable.offsets_increase
  offset_lt point hpoint := by
    refine hencodable.offset_lt point.ilOffset ?_
    rw [← @map_ilOffset_codePoints 0 row _ hencodable.spans]
    exact List.mem_map_of_mem hpoint
  offset_of_change i point hpoint hchange := by
    rw [lastOffset_take_pointsOf hencodable.spans]
    obtain ⟨mark, hmark, rfl⟩ := exists_mark_of_getElem? hpoint
    rw [isDocumentChange_point (hencodable.spans mark (List.mem_of_getElem? hmark))] at hchange
    cases mark with
    | visible offset startLine startColumn endLine endColumn => cases hchange
    | hidden offset => cases hchange
    | document number => rfl
  document_eq i point hpoint := by
    rw [lastDocument_take_pointsOf hencodable.spans]
    obtain ⟨mark, hmark, rfl⟩ := exists_mark_of_getElem? hpoint
    exact document_point_getElem? hmark
  spans point hpoint hvisible := by
    obtain ⟨i, hi⟩ := List.mem_iff_getElem?.1 hpoint
    obtain ⟨mark, hmark, rfl⟩ := exists_mark_of_getElem? hi
    have hspan := hencodable.spans mark (List.mem_of_getElem? hmark)
    rw [isVisible, kind_point hspan] at hvisible
    cases mark with
    | visible offset startLine startColumn endLine endColumn => exact hspan
    | hidden offset => cases hvisible
    | document number => cases hvisible

end Encodable

/-! ## The records that are accepted -/

theorem readStart_eq_ok {lastVisible : Option SequencePoint} {start : Int × Int}
    {cursor next : Cursor} (hresult : readStart lastVisible cursor = .ok start next) :
    ∀ last ∈ lastVisible, -0x10000000 ≤ start.1 - last.startLine ∧
      start.1 - last.startLine < 0x10000000 := by
  rintro last rfl
  obtain ⟨lines, middle, hlines, hrest⟩ := bind_eq_ok hresult
  obtain ⟨columns, after, -, hpure⟩ := bind_eq_ok hrest
  obtain ⟨rfl, -⟩ := pure_eq_ok hpure
  have hrange := compressedSigned_range hlines
  dsimp only
  omega

theorem validSpan_of_visible? {ilOffset row : Nat} {startLine startColumn endLine endColumn : Int}
    {point : SequencePoint}
    (hpoint : visible? ilOffset startLine startColumn endLine endColumn row = some point) :
    ValidSpan startLine startColumn endLine endColumn ∧
      point = (Mark.visible ilOffset startLine.toNat startColumn.toNat endLine.toNat
        endColumn.toNat).point 0 row := by
  unfold visible? at hpoint
  split at hpoint
  case isTrue hspan =>
      cases hpoint
      exact ⟨hspan, rfl⟩
  case isFalse => cases hpoint

/-- What is read behind the height and the width of a span. -/
theorem readSpan_eq_ok {ilOffset row lines : Nat} {columns : Int}
    {lastVisible : Option SequencePoint} {point : SequencePoint} {cursor next : Cursor}
    (hresult : (if lines = 0 ∧ columns = 0 then pure (hidden ilOffset row) else do
      let (line, column) ← readStart lastVisible
      match visible? ilOffset line column (line + lines) (column + columns) row with
      | some point => return point
      | none => Reader.fail .invalidSequencePoint : Reader SequencePoint) cursor =
        .ok point next) :
    ∃ mark : Mark, mark.ilOffset? = some ilOffset ∧ mark.HasValidSpan ∧
      (∀ startLine ∈ mark.startLine?, ∀ last ∈ lastVisible,
        NearLines last.startLine startLine) ∧
      ∀ offset, point = mark.point offset row := by
  split at hresult
  case isTrue =>
      obtain ⟨rfl, -⟩ := pure_eq_ok hresult
      exact ⟨.hidden ilOffset, rfl, trivial, by simp [Mark.startLine?], fun _ => rfl⟩
  case isFalse =>
      obtain ⟨⟨line, column⟩, middle, hstart, hrest⟩ := bind_eq_ok hresult
      dsimp only at hrest
      cases hfound : visible? ilOffset line column (line + lines) (column + columns) row with
      | none =>
          rw [hfound] at hrest
          exact absurd hrest fail_ne_ok
      | some found =>
          rw [hfound] at hrest
          obtain ⟨rfl, -⟩ := pure_eq_ok hrest
          obtain ⟨hspan, rfl⟩ := validSpan_of_visible? hfound
          have hline := hspan.startLine_pos
          have hheight := hspan.startLine_le_endLine
          have hcolumn := hspan.startColumn_nonneg
          have hendColumn := hspan.endColumn_nonneg
          have hnear := readStart_eq_ok hstart
          refine ⟨.visible ilOffset line.toNat column.toNat (line + lines).toNat
            (column + columns).toNat, rfl, ?_, ?_, fun _ => rfl⟩
          · change ValidSpan _ _ _ _
            rwa [Int.toNat_of_nonneg (by omega), Int.toNat_of_nonneg hcolumn,
              Int.toNat_of_nonneg (by omega), Int.toNat_of_nonneg hendColumn]
          · intro startLine hsame last hlast
            cases hsame
            have hdistance := hnear last hlast
            dsimp only at hdistance
            unfold NearLines
            omega

theorem readPoint_eq_ok {ilOffset row : Nat} {lastVisible : Option SequencePoint}
    {point : SequencePoint} {cursor next : Cursor}
    (hresult : readPoint ilOffset row lastVisible cursor = .ok point next) :
    ∃ mark : Mark, mark.ilOffset? = some ilOffset ∧ mark.HasValidSpan ∧
      (∀ startLine ∈ mark.startLine?, ∀ last ∈ lastVisible,
        NearLines last.startLine startLine) ∧
      ∀ offset, point = mark.point offset row := by
  unfold readPoint at hresult
  obtain ⟨lines, afterLines, -, hresult⟩ := bind_eq_ok hresult
  by_cases hflat : lines = 0
  · rw [if_pos hflat] at hresult
    obtain ⟨width, afterWidth, -, hresult⟩ := bind_eq_ok hresult
    exact readSpan_eq_ok hresult
  · rw [if_neg hflat] at hresult
    obtain ⟨columns, afterColumns, -, hresult⟩ := bind_eq_ok hresult
    exact readSpan_eq_ok hresult

theorem Progress.after_eq_addPoint {progress : Progress} {mark : Mark} {ilOffset : Nat}
    (hoffset : mark.ilOffset? = some ilOffset) :
    progress.after mark =
      progress.addPoint (mark.point progress.ilOffset progress.document) := by
  cases mark with
  | visible offset startLine startColumn endLine endColumn => rfl
  | hidden offset => rfl
  | document number => cases hoffset

theorem Progress.Continues.of_point {progress : Progress} {mark : Mark} {ilOffset : Nat}
    (hprogress : progress.Continues []) (hoffset : mark.ilOffset? = some ilOffset)
    (habove : progress.started = true → progress.ilOffset < ilOffset)
    (hlimit : ilOffset < offsetLimit) (hspan : mark.HasValidSpan)
    (hnear : ∀ startLine ∈ mark.startLine?, ∀ last ∈ progress.lastVisible,
      NearLines last.startLine startLine) : progress.Continues [mark] := by
  have hdocument : mark.document? = none := by
    cases mark with
    | visible offset startLine startColumn endLine endColumn => rfl
    | hidden offset => rfl
    | document number => cases hoffset
  exact { hprogress with
    first := by simp [hdocument]
    offset_above := by simpa [hoffset] using habove
    offsets_increase := by simp [hoffset]
    offset_lt := by simpa [hoffset] using hlimit
    document_lt := by simp [hdocument]
    spans := by simpa using hspan
    lines := by
      cases hstart : mark.startLine? with
      | none => simpa [hstart] using hprogress.lines
      | some startLine =>
          have hnear := hnear startLine hstart
          cases hlast : progress.lastVisible with
          | none => simp [hstart]
          | some last => simpa [hstart] using hnear last hlast }

/-- An accepted record is the record of a mark that may stand behind the records before it. -/
theorem exists_mark_of_readRecord {progress middle : Progress} {cursor next : Cursor}
    (hprogress : progress.Continues [])
    (hresult : readRecord progress cursor = .ok middle next) :
    ∃ mark, progress.Continues [mark] ∧ middle = progress.after mark := by
  unfold readRecord at hresult
  obtain ⟨distance, afterDistance, -, hresult⟩ := bind_eq_ok hresult
  by_cases hchange : progress.started = true ∧ distance = 0
  · rw [if_pos hchange] at hresult
    obtain ⟨row, afterRow, hrow, hpure⟩ := bind_eq_ok hresult
    obtain ⟨rfl, -⟩ := pure_eq_ok hpure
    have hlt := compressedUnsigned_lt hrow
    refine ⟨.document row, ?_, rfl⟩
    exact { hprogress with
      first := by simp [hchange.1]
      document_lt := by simpa [Mark.document?] using hlt
      spans := by simp [Mark.HasValidSpan] }
  · rw [if_neg hchange] at hresult
    by_cases hlimit : offsetLimit ≤ progress.ilOffset + distance
    · rw [if_pos hlimit] at hresult
      obtain ⟨_, _, hfail, -⟩ := bind_eq_ok hresult
      exact absurd hfail fail_ne_ok
    · rw [if_neg hlimit] at hresult
      obtain ⟨point, afterPoint, hpoint, hpure⟩ := bind_eq_ok hresult
      obtain ⟨rfl, -⟩ := pure_eq_ok hpure
      obtain ⟨mark, hoffset, hspan, hnear, hsame⟩ := readPoint_eq_ok hpoint
      have habove : progress.started = true → progress.ilOffset < progress.ilOffset + distance := by
        intro hstarted
        have hdistance : distance ≠ 0 := fun hzero => hchange ⟨hstarted, hzero⟩
        omega
      refine ⟨mark, ?_, ?_⟩
      · exact hprogress.of_point hoffset habove (Nat.lt_of_not_le hlimit) hspan hnear
      · rw [Progress.after_eq_addPoint hoffset, ← hsame]

theorem forall_mem_filterMap_cons {view : Mark → Option Nat} {property : Nat → Prop} {mark : Mark}
    {marks : List Mark} (hmark : ∀ found ∈ [mark].filterMap view, property found)
    (hmarks : ∀ found ∈ marks.filterMap view, property found) :
    ∀ found ∈ (mark :: marks).filterMap view, property found := by
  intro found hfound
  rw [← List.singleton_append, List.filterMap_append] at hfound
  exact (List.mem_append.1 hfound).elim (hmark found) (hmarks found)

theorem Progress.started_after_of_started {progress : Progress} {mark : Mark}
    (hstarted : progress.started = true) : (progress.after mark).started = true := by
  cases mark with
  | visible offset startLine startColumn endLine endColumn => rfl
  | hidden offset => rfl
  | document number => exact hstarted

theorem Progress.started_after {progress : Progress} {mark : Mark} {ilOffset : Nat}
    (hoffset : mark.ilOffset? = some ilOffset) : (progress.after mark).started = true := by
  rw [Progress.after_eq_addPoint hoffset]
  rfl

theorem Progress.startLine_after {progress : Progress} {mark : Mark} (hspan : mark.HasValidSpan) :
    (progress.after mark).lastVisible.map startLine =
      mark.startLine?.or (progress.lastVisible.map startLine) := by
  cases mark with
  | visible offset startLine startColumn endLine endColumn =>
      rw [Progress.lastVisible_after_visible hspan]
      rfl
  | hidden offset => rfl
  | document number => rfl

/-- Marks that may stand behind a mark may stand with it behind what is before it. -/
theorem Progress.Continues.cons {progress : Progress} {mark : Mark} {marks : List Mark}
    (hmark : progress.Continues [mark]) (hmarks : (progress.after mark).Continues marks) :
    progress.Continues (mark :: marks) where
  first := hmark.first
  offset_zero := hmark.offset_zero
  offset_above := by
    intro hstarted
    refine forall_mem_filterMap_cons (hmark.offset_above hstarted) fun ilOffset hmem => ?_
    have hlater := hmarks.offset_above (progress.started_after_of_started hstarted) ilOffset hmem
    rw [progress.ilOffset_after] at hlater
    cases hoffset : mark.ilOffset? with
    | none => simpa [hoffset] using hlater
    | some reached =>
        have hreached := hmark.offset_above hstarted reached (by simp [hoffset])
        rw [hoffset, Option.getD_some] at hlater
        exact Nat.lt_trans hreached hlater
  offsets_increase := by
    cases hoffset : mark.ilOffset? with
    | none =>
        rw [List.filterMap_cons_none hoffset]
        exact hmarks.offsets_increase
    | some reached =>
        have hlater := hmarks.offset_above (Progress.started_after hoffset)
        rw [progress.ilOffset_after, hoffset, Option.getD_some] at hlater
        rw [List.filterMap_cons_some hoffset]
        exact List.pairwise_cons.2 ⟨hlater, hmarks.offsets_increase⟩
  offset_lt := forall_mem_filterMap_cons hmark.offset_lt hmarks.offset_lt
  document_lt := forall_mem_filterMap_cons hmark.document_lt hmarks.document_lt
  spans := List.forall_mem_cons.2 ⟨hmark.spans mark List.mem_cons_self, hmarks.spans⟩
  lines := by
    have hlines := hmarks.lines
    rw [Progress.startLine_after (hmark.spans mark List.mem_cons_self)] at hlines
    cases hstart : mark.startLine? with
    | none =>
        rw [hstart, Option.none_or] at hlines
        rwa [List.filterMap_cons_none hstart]
    | some startLine =>
        rw [hstart, Option.some_or] at hlines
        rw [List.filterMap_cons_some hstart]
        cases hlast : progress.lastVisible with
        | none => exact hlines
        | some last => exact List.isChain_cons_cons.2 ⟨hmark.nearLines hstart last hlast, hlines⟩
  startLine_lt := hmark.startLine_lt
  startColumn_lt := hmark.startColumn_lt

theorem exists_marks_of_records {progress last : Progress} {cursor next : Cursor}
    (hresult : untilEnd readRecord progress cursor = .ok last next)
    (hprogress : progress.Continues []) :
    ∃ marks, progress.Continues marks ∧ last = marks.foldl Progress.after progress := by
  refine untilEnd_eq_ok (fun first last => first.Continues [] →
    ∃ marks, first.Continues marks ∧ last = marks.foldl Progress.after first)
    (fun first hfirst => ⟨[], hfirst, rfl⟩) ?_ hresult hprogress
  intro first middle last cursor next hrecord hrest hfirst
  obtain ⟨mark, hmark, rfl⟩ := exists_mark_of_readRecord hfirst hrecord
  obtain ⟨marks, hmarks, rfl⟩ := hrest hmark.tail
  exact ⟨mark :: marks, hmark.cons hmarks, rfl⟩

/-! ## The whole blob -/

theorem Progress.continues_nil_start (row : Nat) : (Progress.start row).Continues [] where
  first _ := rfl
  offset_zero _ := rfl
  offset_above hstarted := by cases hstarted
  offsets_increase := List.Pairwise.nil
  offset_lt := by simp
  document_lt := by simp
  spans := by simp
  lines := List.isChain_nil
  startLine_lt := by simp [Progress.start]
  startColumn_lt := by simp [Progress.start]

theorem Progress.Continues.encodable {row : Nat} {marks : List Mark} (hrow : row ≠ 0)
    (hcontinues : (Progress.start row).Continues marks) : Encodable row marks where
  initial hzero := absurd hzero hrow
  first := by
    rw [behindInitial, if_neg hrow]
    exact hcontinues.first rfl
  offsets_increase := hcontinues.offsets_increase
  offset_lt := hcontinues.offset_lt
  document_lt := hcontinues.document_lt
  spans := hcontinues.spans
  lines := hcontinues.lines

theorem Progress.Continues.encodable_initial {initial : Nat} {marks : List Mark}
    (hinitial : initial < 0x20000000)
    (hcontinues : ((Progress.start 0).changeDocument initial).Continues marks) :
    Encodable 0 (.document initial :: marks) where
  initial _ := rfl
  first := hcontinues.first rfl
  offsets_increase := hcontinues.offsets_increase
  offset_lt := hcontinues.offset_lt
  document_lt := List.forall_mem_cons.2 ⟨hinitial, hcontinues.document_lt⟩
  spans := List.forall_mem_cons.2 ⟨trivial, hcontinues.spans⟩
  lines := hcontinues.lines

/-- The points of any blob that is accepted are those of marks that can be encoded. -/
theorem exists_encodable_of_decode {blob : ByteArray} {row : Nat} {points : List SequencePoint}
    (hdecode : decode blob row = .ok points) :
    ∃ marks, Encodable row marks ∧ points = pointsOf row marks := by
  obtain ⟨next, hresult⟩ := run_eq_ok hdecode
  unfold readBlob at hresult
  obtain ⟨_, _, -, hresult⟩ := bind_eq_ok hresult
  by_cases hrow : row = 0
  · rw [if_pos hrow] at hresult
    obtain ⟨initial, afterInitial, hinitial, hresult⟩ := bind_eq_ok hresult
    rw [pure_bind] at hresult
    obtain ⟨last, afterLast, hrecords, hpure⟩ := bind_eq_ok hresult
    obtain ⟨rfl, -⟩ := pure_eq_ok hpure
    subst hrow
    have hstart : ((Progress.start 0).changeDocument initial).Continues [] :=
      { Progress.continues_nil_start 0 with }
    obtain ⟨marks, hcontinues, rfl⟩ := exists_marks_of_records hrecords hstart
    refine ⟨.document initial :: marks,
      hcontinues.encodable_initial (compressedUnsigned_lt hinitial), ?_⟩
    rw [points_foldl_after, pointsOf, pointsFrom_cons]
    rfl
  · rw [if_neg hrow, pure_bind] at hresult
    obtain ⟨last, afterLast, hrecords, hpure⟩ := bind_eq_ok hresult
    obtain ⟨rfl, -⟩ := pure_eq_ok hpure
    obtain ⟨marks, hcontinues, rfl⟩ :=
      exists_marks_of_records hrecords (Progress.continues_nil_start row)
    refine ⟨marks, hcontinues.encodable hrow, ?_⟩
    rw [points_foldl_after]
    rfl

/-- The points of any blob that is accepted are well formed, can be encoded, and are read back from
what they are encoded to.  No difference is out of range, since the offsets of well-formed points
increase and their lines are in order. -/
theorem decode_wellFormed {blob : ByteArray} {row : Nat} {points : List SequencePoint}
    (hdecode : decode blob row = .ok points) :
    WellFormed row points ∧
      ∃ bytes, encode row (points.map mark) = .ok bytes ∧
        decode bytes.toByteArray row = .ok points := by
  obtain ⟨marks, hencodable, rfl⟩ := exists_encodable_of_decode hdecode
  refine ⟨hencodable.wellFormed, ?_⟩
  obtain ⟨bytes, hbytes, hreads⟩ := exists_blob hencodable
  rw [pointsOf, map_mark_pointsFrom hencodable.spans]
  exact ⟨bytes, hbytes, run_of_readsAll hreads⟩

/-- A blob whose numbers are wider than they need be, with a step back and two zero distances. -/
def overlongBlob : ByteArray :=
  [0xC0, 0, 0, 5, 0x80, 3,
    0xC0, 0, 0, 0, 1, 0x7B, 0x80, 10, 9,
    0x80, 0, 0xC0, 0, 0, 7,
    2, 0x80, 0, 0,
    1, 0, 4, 0x7B, 0].toByteArray

theorem decode_wellFormed_overlongBlob :
    ∃ points,
      points = [documentChange 0 3, ⟨0, 10, 9, 11, 6, 3⟩, documentChange 0 7, hidden 2 7,
        ⟨3, 7, 9, 7, 13, 7⟩] ∧
      decode overlongBlob 0 = .ok points ∧ WellFormed 0 points ∧
      ∃ bytes,
        encode 0 [.document 3, .visible 0 10 9 11 6, .document 7, .hidden 2,
          .visible 3 7 9 7 13] = .ok bytes ∧
        decode bytes.toByteArray 0 = .ok points := by
  refine ⟨_, rfl, ?_⟩
  have hdecode : decode overlongBlob 0 = .ok [documentChange 0 3, ⟨0, 10, 9, 11, 6, 3⟩,
      documentChange 0 7, hidden 2 7, ⟨3, 7, 9, 7, 13, 7⟩] := by
    decide +kernel
  exact ⟨hdecode, decode_wellFormed hdecode⟩

end PortablePdb.SequencePoint
