import PortablePdb.Text.Record

/-!
# Sequence points

A sequence point ties an offset in a method's code to a span of a document.  Two start lines that
no document has mark the points without a span: hidden code, and a change of the document that the
following points lie in.
-/

namespace PortablePdb

structure SequencePoint where
  ilOffset : Nat
  startLine : Nat
  startColumn : Nat
  endLine : Nat
  endColumn : Nat
  document : Nat
  deriving DecidableEq, Repr

namespace SequencePoint

def hiddenLine : Nat := 0xFEEFEE

def documentChangeLine : Nat := 0xFDDFDD

/-- Lines and code offsets stay below this. -/
def offsetLimit : Nat := 0x20000000

def columnLimit : Nat := 0x10000

inductive Kind where
  | visible
  | hidden
  | documentChange
  deriving DecidableEq, Repr

def hidden (ilOffset document : Nat) : SequencePoint where
  ilOffset := ilOffset
  startLine := hiddenLine
  startColumn := 0
  endLine := hiddenLine
  endColumn := 0
  document := document

def documentChange (ilOffset document : Nat) : SequencePoint where
  ilOffset := ilOffset
  startLine := documentChangeLine
  startColumn := 0
  endLine := documentChangeLine
  endColumn := 0
  document := document

/-- The start line alone decides. -/
def kind (point : SequencePoint) : Kind :=
  if point.startLine = hiddenLine then .hidden
  else if point.startLine = documentChangeLine then .documentChange
  else .visible

def isVisible (point : SequencePoint) : Bool :=
  point.kind == .visible

def isDocumentChange (point : SequencePoint) : Bool :=
  point.kind == .documentChange

def containsLine (point : SequencePoint) (line : Nat) : Bool :=
  point.isVisible && point.startLine ≤ line && line ≤ point.endLine

/-- What the span of a visible point must satisfy: it is not empty, does not run backwards, and
stays within the limits and away from the two marks. -/
structure ValidSpan (startLine startColumn endLine endColumn : Int) : Prop where
  startLine_pos : 1 ≤ startLine
  startLine_le_endLine : startLine ≤ endLine
  endLine_lt : endLine < offsetLimit
  startColumn_nonneg : 0 ≤ startColumn
  startColumn_lt : startColumn < columnLimit
  endColumn_nonneg : 0 ≤ endColumn
  endColumn_lt : endColumn < columnLimit
  not_hiddenLine : startLine ≠ hiddenLine ∧ endLine ≠ hiddenLine
  not_documentChangeLine : startLine ≠ documentChangeLine ∧ endLine ≠ documentChangeLine
  not_empty : startLine = endLine → startColumn < endColumn

instance (startLine startColumn endLine endColumn : Int) :
    Decidable (ValidSpan startLine startColumn endLine endColumn) :=
  decidable_of_iff
    (1 ≤ startLine ∧ startLine ≤ endLine ∧ endLine < offsetLimit ∧
      0 ≤ startColumn ∧ startColumn < columnLimit ∧ 0 ≤ endColumn ∧ endColumn < columnLimit ∧
      (startLine ≠ hiddenLine ∧ endLine ≠ hiddenLine) ∧
      (startLine ≠ documentChangeLine ∧ endLine ≠ documentChangeLine) ∧
      (startLine = endLine → startColumn < endColumn))
    ⟨fun ⟨a, b, c, d, e, f, g, h, i, j⟩ => ⟨a, b, c, d, e, f, g, h, i, j⟩,
      fun ⟨a, b, c, d, e, f, g, h, i, j⟩ => ⟨a, b, c, d, e, f, g, h, i, j⟩⟩

def visible? (ilOffset : Nat) (startLine startColumn endLine endColumn : Int) (document : Nat) :
    Option SequencePoint :=
  if ValidSpan startLine startColumn endLine endColumn then
    some {
      ilOffset
      startLine := startLine.toNat
      startColumn := startColumn.toNat
      endLine := endLine.toNat
      endColumn := endColumn.toNat
      document }
  else none

def describe (point : SequencePoint) : String :=
  let ilOffset := ("il_offset", toString point.ilOffset)
  let document := ("document", toString point.document)
  match point.kind with
  | .hidden => Text.record "HiddenSequencePoint" [ilOffset, document]
  | .documentChange => Text.record "DocumentChange" [ilOffset, document]
  | .visible =>
      Text.record "SequencePoint" [
        ilOffset,
        ("start_line", toString point.startLine),
        ("start_column", toString point.startColumn),
        ("end_line", toString point.endLine),
        ("end_column", toString point.endColumn),
        document]

end SequencePoint

end PortablePdb
