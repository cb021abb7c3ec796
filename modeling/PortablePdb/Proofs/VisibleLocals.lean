import Mathlib.Data.List.Basic
import PortablePdb.Proofs.Method

/-!
# The locals at an offset

The scopes that cover an offset are nested or overlap there.  A method orders its scopes by their
ranges, and among the scopes that cover one offset this order agrees with containment: no scope
stands behind one that lies properly inside it.
-/

namespace PortablePdb

namespace Scope

/-- The range of the scope holds the offset. -/
def Covers (scope : Scope) (ilOffset : Nat) : Prop :=
  scope.startOffset ≤ ilOffset ∧ ilOffset < scope.startOffset + scope.length

instance (scope : Scope) (ilOffset : Nat) : Decidable (scope.Covers ilOffset) :=
  inferInstanceAs (Decidable (_ ∧ _))

theorem contains_eq (scope : Scope) (ilOffset : Nat) :
    scope.contains ilOffset = decide (scope.Covers ilOffset) := by
  rw [Bool.eq_iff_iff, decide_eq_true_iff, contains, Bool.and_eq_true, decide_eq_true_eq,
    decide_eq_true_eq]
  rfl

structure ProperlyInside (inner outer : Scope) : Prop where
  covers_of_covers : ∀ ilOffset, inner.Covers ilOffset → outer.Covers ilOffset
  exists_covers : ∃ ilOffset, outer.Covers ilOffset ∧ ¬inner.Covers ilOffset

/-- Of two scopes that cover an offset, the one in front does not lie properly inside the other. -/
theorem not_properlyInside_of_precedes {first second : Scope} {ilOffset : Nat}
    (hprecedes : first.precedes second) (hcovers : first.Covers ilOffset) :
    ¬first.ProperlyInside second := by
  rintro ⟨hinside, other, hother, hbeside⟩
  rw [precedes_iff] at hprecedes
  unfold Covers at *
  -- Both ends of the first range lie in the second one.
  have hstart := hinside first.startOffset (by omega)
  have hlast := hinside (first.startOffset + first.length - 1) (by omega)
  omega

/-- These are the scopes that cover the offset, each once.  None stands behind one that lies
properly inside it, and scopes with the same range are in their given order. -/
structure OutermostFirst (scopes : List Scope) (ilOffset : Nat) (ordered : List Scope) : Prop where
  perm : ordered.Perm (scopes.filter fun scope => scope.Covers ilOffset)
  outermost_first : ordered.Pairwise fun first second => ¬first.ProperlyInside second
  stable : ∀ startOffset length, ordered.filter (hasRange startOffset length) =
    (scopes.filter fun scope => scope.Covers ilOffset).filter (hasRange startOffset length)

theorem SortedFrom.outermostFirst {scopes sorted : List Scope} (hsorted : SortedFrom scopes sorted)
    (ilOffset : Nat) :
    OutermostFirst scopes ilOffset (sorted.filter fun scope => scope.Covers ilOffset) where
  perm := hsorted.perm.filter _
  outermost_first := by
    refine (hsorted.ordered.filter _).imp_of_mem fun hfirst _ hprecedes => ?_
    have hcovers := (List.mem_filter.1 hfirst).2
    exact not_properlyInside_of_precedes hprecedes (of_decide_eq_true hcovers)
  stable startOffset length := by
    rw [List.filter_comm, hsorted.stable startOffset length, List.filter_comm]

end Scope

namespace MethodInfo

/-- The locals at an offset are the variables of the scopes that cover it, those of a scope before
those of the scopes inside it. -/
theorem localsAt_ofPoints? (row : Nat) {points : List SequencePoint}
    (hvisible : ∃ point ∈ points, point.isVisible) (scopes : List Scope) (ilOffset : Nat) :
    ∃ info ordered, ofPoints? row points scopes = some info ∧
      Scope.OutermostFirst scopes ilOffset ordered ∧
      info.localsAt ilOffset = ordered.flatMap Scope.variables := by
  have hsome := isSome_ofPoints? row points scopes
  rw [List.any_eq_true.2 hvisible] at hsome
  obtain ⟨info, hinfo⟩ := Option.isSome_iff_exists.1 hsome
  refine ⟨info, _, hinfo, (builtFrom_of_ofPoints? hinfo).scopes.outermostFirst ilOffset, ?_⟩
  simp only [localsAt, Scope.contains_eq]

def namedScope (startOffset length : Nat) (name : String) : Scope where
  startOffset := startOffset
  length := length
  «variables» := [⟨0, 0, name⟩]
  constants := []

/-- Inner before outer, two of one range, one that ends behind all offsets, and one elsewhere. -/
def mixedScopes : List Scope := [namedScope 4 4 "inner", namedScope 2 8 "first",
  namedScope 9 3 "elsewhere", namedScope 2 8 "second", namedScope 1 0xFFFFFFFF "outer"]

theorem localsAt_ofPoints?_mixedScopes :
    ∃ info ordered, ofPoints? 7 [⟨0, 10, 1, 12, 5, 1⟩] mixedScopes = some info ∧
      Scope.OutermostFirst mixedScopes 5 ordered ∧
      info.localsAt 5 = ordered.flatMap Scope.variables :=
  localsAt_ofPoints? 7 (by decide) mixedScopes 5

end MethodInfo

end PortablePdb
