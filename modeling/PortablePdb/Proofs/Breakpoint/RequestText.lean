import PortablePdb.Breakpoint.Request
import PortablePdb.Proofs.Text.Numeral

/-!
# Breakpoint texts

A text names a path and one or two numbers behind it.  Splitting from the right leaves all colons
to the path except those in front of the numbers, so a path with colons comes back whole as long as
its own last part is not taken for a line.
-/

namespace PortablePdb

open Text

namespace BreakpointRequest

variable {text before after path lineText columnText : List Char} {number line column : Nat}

/-! ## The last colon -/

theorem splitAtLastColon_cases (text : List Char) :
    (splitAtLastColon text = none ∧ ':' ∉ text) ∨
      ∃ before after, splitAtLastColon text = some (before, after) ∧
        text = before ++ ':' :: after ∧ ':' ∉ after := by
  induction text with
  | nil => exact .inl ⟨rfl, List.not_mem_nil⟩
  | cons c rest ih =>
      rw [splitAtLastColon]
      rcases ih with ⟨hnone, hcolon⟩ | ⟨before, after, hsome, rfl, hcolon⟩
      · rw [hnone]
        by_cases hc : c = ':'
        · subst hc
          exact .inr ⟨[], rest, rfl, rfl, hcolon⟩
        · exact .inl ⟨if_neg hc, by simp [hcolon, Ne.symm hc]⟩
      · rw [hsome]
        exact .inr ⟨c :: before, after, rfl, rfl, hcolon⟩

theorem splitAtLastColon_of_notMem (hcolon : ':' ∉ text) : splitAtLastColon text = none := by
  rcases splitAtLastColon_cases text with ⟨hnone, -⟩ | ⟨before, after, -, rfl, -⟩
  · exact hnone
  · simp at hcolon

theorem splitAtLastColon_append (hcolon : ':' ∉ after) (before : List Char) :
    splitAtLastColon (before ++ ':' :: after) = some (before, after) := by
  induction before with
  | nil =>
      rw [List.nil_append, splitAtLastColon, splitAtLastColon_of_notMem hcolon]
      rfl
  | cons c rest ih => rw [List.cons_append, splitAtLastColon, ih]

/-! ## A number at the end -/

/-- The part behind the last colon of a text that has one. -/
def LastPart (text part : List Char) : Prop :=
  ':' ∉ part ∧ ∃ before, text = before ++ ':' :: part

theorem LastPart.unique {part other : List Char} (hpart : LastPart text part)
    (hother : LastPart text other) : part = other := by
  obtain ⟨hcolon, before, rfl⟩ := hpart
  obtain ⟨hcolon', before', hsame⟩ := hother
  have hsplit := splitAtLastColon_append hcolon before
  rw [hsame, splitAtLastColon_append hcolon'] at hsplit
  cases hsplit
  rfl

theorem validate_eq_ok_iff (request : BreakpointRequest) :
    request.validate = .ok () ↔ ¬isBlankText request.filePath ∧ 0 < request.line := by
  unfold validate
  split
  case isTrue hblank => simp [hblank]
  case isFalse hblank =>
      split
      case isTrue hline => simp [hline]
      case isFalse hline =>
          exact ⟨fun _ => ⟨hblank, Nat.pos_of_ne_zero hline⟩, fun _ => rfl⟩

end BreakpointRequest

end PortablePdb
