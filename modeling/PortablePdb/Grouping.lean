/-!
# Grouping by a number

Values with a number each are collected in one pass into an array that holds, at the position of a
number, the values with that number in their order.  Main statement: the group at a position is the
sublist of the values whose number is the position.
-/

namespace PortablePdb

variable {α : Type}

/-- Adds a value to its group; numbers beyond the array have none. -/
def addToGroup (groups : Array (Array α)) (entry : Nat × α) : Array (Array α) :=
  groups.modify entry.1 fun group => group.push entry.2

/-- The values of each number below `size`. -/
def groupByNumber (size : Nat) (entries : List (Nat × α)) : Array (Array α) :=
  entries.foldl addToGroup (Array.replicate size #[])

def group (groups : Array (Array α)) (number : Nat) : List α :=
  (groups.getD number #[]).toList

theorem group_addToGroup (groups : Array (Array α)) (entry : Nat × α) {number : Nat}
    (h : number < groups.size) :
    group (addToGroup groups entry) number =
      group groups number ++ if entry.1 = number then [entry.2] else [] := by
  by_cases hnumber : entry.1 = number
  · simp [group, addToGroup, hnumber, h, Array.getElem_modify]
  · simp [group, addToGroup, hnumber, h, Array.getElem_modify]

theorem group_foldl_addToGroup (groups : Array (Array α)) (entries : List (Nat × α))
    {number : Nat} (h : number < groups.size) :
    group (entries.foldl addToGroup groups) number =
      group groups number ++ ((entries.filter fun entry => entry.1 = number).map Prod.snd) := by
  induction entries generalizing groups with
  | nil => simp
  | cons entry entries ih =>
      have hsize : number < (addToGroup groups entry).size := by
        simpa [addToGroup] using h
      rw [List.foldl_cons, ih _ hsize, group_addToGroup groups entry h]
      by_cases hnumber : entry.1 = number <;> simp [hnumber]

theorem group_groupByNumber {size number : Nat} (h : number < size) (entries : List (Nat × α)) :
    group (groupByNumber size entries) number =
      (entries.filter fun entry => entry.1 = number).map Prod.snd := by
  rw [groupByNumber, group_foldl_addToGroup _ _ (by simpa using h)]
  simp [group, h]

end PortablePdb
