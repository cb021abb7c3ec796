import PortablePdb.Proofs.Index.Join
import PortablePdb.Proofs.RelatedLists

/-!
# Lists of results

The rows of a table are numbered from one.  Of a list of results, the successes are the values of
the items that have one, and the failures are the others.
-/

namespace PortablePdb

/-! ## Rows and their numbers -/

namespace Rows

variable {Row : Type} {rows : Rows Row}

theorem getElem?_entries (rows : Rows Row) (i : Nat) :
    rows.entries[i]? = rows.toArray[i]?.map fun row => (i + 1, row) := by
  rw [entries, List.getElem?_map, List.getElem?_zipIdx, Array.getElem?_toList, Option.map_map]
  simp only [Function.comp_def, Nat.add_comm 1]

theorem get?_succ (rows : Rows Row) (i : Nat) : rows.get? (i + 1) = rows.toArray[i]? := by
  rw [get?, if_neg (Nat.succ_ne_zero i), Nat.add_sub_cancel]

theorem entries_increase (rows : Rows Row) : (rows.entries.map Prod.fst).Pairwise (· < ·) := by
  have hnumbers : rows.entries.map Prod.fst = List.range' 1 rows.toArray.toList.length := by
    rw [entries, List.map_map]
    exact List.zipIdx_map_snd 1 rows.toArray.toList
  rw [hnumbers]
  exact List.pairwise_lt_range'

end Rows

namespace DocumentIndex

section Entries

variable {α : Type} {Row : Type} (entries : List (Nat × Row))
  (read : Nat × Row → Except ReadError α)

theorem successes_map :
    successes (entries.map fun entry => (entry.1, read entry)) =
      entries.filterMap fun entry => (read entry).toOption := by
  rw [successes, List.filterMap_map]
  refine List.filterMap_congr fun entry _ => ?_
  rw [Function.comp_apply]
  cases read entry <;> rfl

theorem forall₂_successes :
    List.Forall₂ (fun entry value => read entry = .ok value)
      (entries.filter fun entry => (read entry).isOk)
      (successes (entries.map fun entry => (entry.1, read entry))) := by
  have hforall := forall₂_filterMap (fun entry => (read entry).toOption) entries
  simp only [Except.toOption_eq_some_iff, Except.isSome_toOption] at hforall
  rw [successes_map]
  exact hforall

theorem length_failures :
    (failures (entries.map fun entry => (entry.1, read entry))).length =
      entries.countP fun entry => !(read entry).isOk := by
  induction entries with
  | nil => rfl
  | cons entry entries ih =>
      rw [List.countP_cons, ← ih, failures, List.map_cons, List.filterMap_cons]
      cases hread : read entry with
      | ok value => rfl
      | error error => rfl

end Entries

end DocumentIndex

end PortablePdb
