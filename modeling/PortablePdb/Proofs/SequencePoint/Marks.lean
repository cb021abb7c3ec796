import Mathlib.Data.List.Chain
import PortablePdb.SequencePoint.Encode

/-!
# The points that marks stand for

A mark gives its own offset or its own document, but not both.  The point it stands for takes what
is missing from the marks before it: the offset of the last point with one, and the last document.
`Encodable` collects what a list of marks must satisfy for its differences to be representable; it
is decidable, and says nothing about bytes.
-/

namespace PortablePdb.SequencePoint

namespace Mark

def ilOffset? : Mark → Option Nat
  | visible ilOffset _ _ _ _ => some ilOffset
  | hidden ilOffset => some ilOffset
  | document _ => none

def document? : Mark → Option Nat
  | document row => some row
  | _ => none

/-- The line that a visible mark starts at. -/
def startLine? : Mark → Option Nat
  | visible _ startLine _ _ _ => some startLine
  | _ => none

/-- Whether the mark's span, if it has one, is that of a visible point. -/
def HasValidSpan : Mark → Prop
  | visible _ startLine startColumn endLine endColumn =>
      ValidSpan startLine startColumn endLine endColumn
  | _ => True

instance (mark : Mark) : Decidable mark.HasValidSpan := by
  cases mark <;> unfold HasValidSpan <;> infer_instance

/-- The point of a mark.  A document change takes the offset from elsewhere, the other points the
document. -/
def point (ilOffset row : Nat) : Mark → SequencePoint
  | visible ilOffset startLine startColumn endLine endColumn =>
      { ilOffset, startLine, startColumn, endLine, endColumn, document := row }
  | hidden ilOffset => SequencePoint.hidden ilOffset row
  | document row => documentChange ilOffset row

end Mark

/-- The offset of the last mark that has one, or else `ilOffset`. -/
def latestOffset (ilOffset : Nat) (marks : List Mark) : Nat :=
  (marks.filterMap Mark.ilOffset?).getLast?.getD ilOffset

/-- The document of the last mark that names one, or else `row`. -/
def latestDocument (row : Nat) (marks : List Mark) : Nat :=
  (marks.filterMap Mark.document?).getLast?.getD row

/-- One point for each mark.  Offsets count from `ilOffset` before the first point that has one,
and documents from `row`. -/
def pointsFrom (ilOffset row : Nat) (marks : List Mark) : List SequencePoint :=
  marks.mapIdx fun i mark =>
    mark.point (latestOffset ilOffset (marks.take i)) (latestDocument row (marks.take (i + 1)))

/-- The points of a method whose row names the document `row`. -/
def pointsOf (row : Nat) (marks : List Mark) : List SequencePoint :=
  pointsFrom 0 row marks

theorem latestOffset_cons (ilOffset : Nat) (mark : Mark) (marks : List Mark) :
    latestOffset ilOffset (mark :: marks) =
      latestOffset (mark.ilOffset?.getD ilOffset) marks := by
  cases hoffset : mark.ilOffset? with
  | none => simp [latestOffset, hoffset]
  | some offset => simp [latestOffset, hoffset, List.getLast?_cons]

theorem latestDocument_cons (row : Nat) (mark : Mark) (marks : List Mark) :
    latestDocument row (mark :: marks) = latestDocument (mark.document?.getD row) marks := by
  cases hdocument : mark.document? with
  | none => simp [latestDocument, hdocument]
  | some row => simp [latestDocument, hdocument, List.getLast?_cons]

@[simp] theorem pointsFrom_nil (ilOffset row : Nat) : pointsFrom ilOffset row [] = [] := rfl

theorem pointsFrom_cons (ilOffset row : Nat) (mark : Mark) (marks : List Mark) :
    pointsFrom ilOffset row (mark :: marks) =
      mark.point ilOffset (mark.document?.getD row) ::
        pointsFrom (mark.ilOffset?.getD ilOffset) (mark.document?.getD row) marks := by
  simp only [pointsFrom, List.mapIdx_cons, List.take_zero, List.take_succ_cons,
    latestOffset_cons, latestDocument_cons]
  rfl

/-! ## Marks that can be encoded -/

/-- Start lines that a signed difference can tell apart. -/
def NearLines (first next : Nat) : Prop :=
  -0x10000000 ≤ (next : Int) - first ∧ (next : Int) - first < 0x10000000

instance (first next : Nat) : Decidable (NearLines first next) :=
  inferInstanceAs (Decidable (_ ∧ _))

/-- The marks behind the initial document, which only a method without a document of its own
has. -/
def behindInitial (row : Nat) (marks : List Mark) : List Mark :=
  if row = 0 then marks.tail else marks

/-- What the marks of a method must satisfy whose row names the document `row`. -/
structure Encodable (row : Nat) (marks : List Mark) : Prop where
  initial : row = 0 → (marks.head?.bind Mark.document?).isSome
  first : ((behindInitial row marks).head?.bind Mark.document?).isNone
  offsets_increase : (marks.filterMap Mark.ilOffset?).Pairwise (· < ·)
  offset_lt : ∀ ilOffset ∈ marks.filterMap Mark.ilOffset?, ilOffset < offsetLimit
  document_lt : ∀ row ∈ marks.filterMap Mark.document?, row < 0x20000000
  spans : ∀ mark ∈ marks, mark.HasValidSpan
  lines : (marks.filterMap Mark.startLine?).IsChain NearLines

instance (row : Nat) (marks : List Mark) : Decidable (Encodable row marks) :=
  decidable_of_iff
    ((row = 0 → (marks.head?.bind Mark.document?).isSome) ∧
      ((behindInitial row marks).head?.bind Mark.document?).isNone ∧
      (marks.filterMap Mark.ilOffset?).Pairwise (· < ·) ∧
      (∀ ilOffset ∈ marks.filterMap Mark.ilOffset?, ilOffset < offsetLimit) ∧
      (∀ row ∈ marks.filterMap Mark.document?, row < 0x20000000) ∧
      (∀ mark ∈ marks, mark.HasValidSpan) ∧
      (marks.filterMap Mark.startLine?).IsChain NearLines)
    ⟨fun ⟨a, b, c, d, e, f, g⟩ => ⟨a, b, c, d, e, f, g⟩,
      fun ⟨a, b, c, d, e, f, g⟩ => ⟨a, b, c, d, e, f, g⟩⟩

/-! ## The documents of the points -/

theorem document_of_mem_pointsFrom {ilOffset row : Nat} {marks : List Mark}
    {point : SequencePoint} (hpoint : point ∈ pointsFrom ilOffset row marks) :
    point.document = row ∨ point.document ∈ marks.filterMap Mark.document? := by
  induction marks generalizing ilOffset row with
  | nil => cases hpoint
  | cons mark marks ih =>
      rw [pointsFrom_cons] at hpoint
      rcases List.mem_cons.1 hpoint with rfl | hrest
      · cases mark with
        | document other => exact .inr (List.mem_cons_self)
        | visible => exact .inl rfl
        | hidden => exact .inl rfl
      · cases mark with
        | document other =>
            rcases ih hrest with hother | hmem
            · exact .inr (List.mem_cons.2 (.inl hother))
            · exact .inr (List.mem_cons.2 (.inr hmem))
        | visible => exact ih hrest
        | hidden => exact ih hrest

/-- A method that names no document itself starts with one. -/
theorem Encodable.exists_initial {marks : List Mark} (hencodable : Encodable 0 marks) :
    ∃ initial rest, marks = .document initial :: rest := by
  have hinitial := hencodable.initial rfl
  cases marks with
  | nil => cases hinitial
  | cons mark rest =>
      cases mark with
      | document initial => exact ⟨initial, rest, rfl⟩
      | hidden _ => cases hinitial
      | visible _ _ _ _ _ => cases hinitial

theorem Encodable.document_of_mem {row : Nat} {marks : List Mark} {point : SequencePoint}
    (hencodable : Encodable row marks) (hpoint : point ∈ pointsOf row marks) :
    (row ≠ 0 ∧ point.document = row) ∨ point.document ∈ marks.filterMap Mark.document? := by
  by_cases hrow : row = 0
  · subst hrow
    obtain ⟨initial, rest, rfl⟩ := hencodable.exists_initial
    rw [pointsOf, pointsFrom_cons] at hpoint
    rcases List.mem_cons.1 hpoint with rfl | hrest
    · exact .inr List.mem_cons_self
    · exact .inr (List.mem_cons.2 (document_of_mem_pointsFrom hrest))
  · rcases document_of_mem_pointsFrom hpoint with hsame | hmem
    · exact .inl ⟨hrow, hsame⟩
    · exact .inr hmem

end PortablePdb.SequencePoint
