import PortablePdb.Builder.Image
import PortablePdb.Proofs.Bytes.Reading

/-!
# Row counts read back

The set of tables that have rows has exactly their bits, so a reader of the set asks for exactly
the counts that were written.
-/

namespace PortablePdb

open Reader

/-- There is a count for each table, and each fits into four bytes. -/
structure RowCounts.Fits (rows : RowCounts) : Prop where
  size_eq : rows.counts.size = tableLimit
  count_lt : ∀ number, rows.get number < Bytes.limit 4

namespace RowCounts

theorem get_of_le {rows : RowCounts} (hfits : rows.Fits) {number : Nat}
    (hnumber : tableLimit ≤ number) : rows.get number = 0 := by
  have hsize : rows.counts.size ≤ number := by
    rw [hfits.size_eq]
    exact hnumber
  rw [get, Array.getD_eq_getD_getElem?, Array.getElem?_eq_none hsize]
  rfl

theorem map_get_range {rows : RowCounts} (hfits : rows.Fits) :
    ((List.range tableLimit).map rows.get).toArray = rows.counts := by
  apply Array.ext
  · simp [hfits.size_eq]
  · intro number hleft hright
    simp [get, hright]

theorem get_set {rows : RowCounts} (hfits : rows.Fits) {table number count : Nat}
    (htable : table < tableLimit) :
    (rows.set table count).get number = if table = number then count else rows.get number := by
  have hsize : table < rows.counts.size := by
    rw [hfits.size_eq]
    exact htable
  simp only [get, set, Array.getD_eq_getD_getElem?, Array.getElem?_setIfInBounds, if_pos hsize]
  split <;> rfl

theorem Fits.set {rows : RowCounts} (hfits : rows.Fits) {table count : Nat}
    (htable : table < tableLimit) (hcount : count < Bytes.limit 4) :
    (rows.set table count).Fits where
  size_eq := by simp [RowCounts.set, hfits.size_eq]
  count_lt number := by
    rw [get_set hfits htable]
    split
    · exact hcount
    · exact hfits.count_lt number

theorem get_empty (number : Nat) : RowCounts.empty.get number = 0 := by
  simp only [get, RowCounts.empty, Array.getD_eq_getD_getElem?, Array.getElem?_replicate]
  split <;> rfl

theorem fits_empty : RowCounts.empty.Fits where
  size_eq := by simp [RowCounts.empty]
  count_lt number := by
    rw [get_empty]
    decide

theorem fits_foldl_set {rows : RowCounts} (hfits : rows.Fits) {entries : List (Nat × Nat)}
    (hentries : ∀ entry ∈ entries, entry.1 < tableLimit ∧ entry.2 < Bytes.limit 4) :
    (entries.foldl (fun rows entry => rows.set entry.1 entry.2) rows).Fits := by
  induction entries generalizing rows with
  | nil => exact hfits
  | cons entry entries ih =>
      have hentry := hentries entry List.mem_cons_self
      exact ih (hfits.set hentry.1 hentry.2)
        fun other hother => hentries other (List.mem_cons_of_mem entry hother)

theorem get_foldl_set {rows : RowCounts} (hfits : rows.Fits) {entries : List (Nat × Nat)}
    (hentries : ∀ entry ∈ entries, entry.1 < tableLimit ∧ entry.2 < Bytes.limit 4)
    (number : Nat) :
    (entries.foldl (fun rows entry => rows.set entry.1 entry.2) rows).get number =
      ((entries.filter fun entry => entry.1 = number).getLast?.map Prod.snd).getD
        (rows.get number) := by
  induction entries generalizing rows with
  | nil => rfl
  | cons entry entries ih =>
      have hentry := hentries entry List.mem_cons_self
      rw [List.foldl_cons, ih (hfits.set hentry.1 hentry.2)
        fun other hother => hentries other (List.mem_cons_of_mem entry hother),
        get_set hfits hentry.1]
      by_cases hnumber : entry.1 = number
      · simp [hnumber, List.getLast?_cons]
      · simp [hnumber]

/-! ## The set of tables -/

theorem testBit_one_shiftLeft (table number : Nat) :
    (1 <<< table).testBit number = (table == number) := by
  rw [Nat.one_shiftLeft, Nat.testBit_two_pow]
  rfl

theorem testBit_foldl_or_shiftLeft (entries : List (Nat × Nat)) (set number : Nat) :
    (entries.foldl (fun set entry => set ||| 1 <<< entry.1) set).testBit number =
      (set.testBit number || entries.any fun entry => entry.1 == number) := by
  induction entries generalizing set with
  | nil => simp
  | cons entry entries ih =>
      rw [List.foldl_cons, ih, Nat.testBit_or, testBit_one_shiftLeft, List.any_cons, Bool.or_assoc]

theorem testBit_tableSet {rows : RowCounts} (hfits : rows.Fits) (number : Nat) :
    (Builder.tableSet rows).testBit number = (rows.get number != 0) := by
  rw [Builder.tableSet, testBit_foldl_or_shiftLeft, Nat.zero_testBit, Bool.false_or,
    Bool.eq_iff_iff, List.any_eq_true]
  simp only [nonzero, List.mem_filterMap, List.mem_range, beq_iff_eq, bne_iff_ne]
  constructor
  · rintro ⟨entry, ⟨table, htable, hentry⟩, rfl⟩
    split at hentry
    · cases hentry
    · cases hentry
      assumption
  · intro hcount
    refine ⟨(number, rows.get number), ⟨number, ?_, by rw [if_neg hcount]⟩, rfl⟩
    refine Nat.lt_of_not_le fun hnumber => hcount ?_
    exact get_of_le hfits hnumber

theorem tableSet_lt {rows : RowCounts} (hfits : rows.Fits) :
    Builder.tableSet rows < Bytes.limit 8 := by
  have hlimit : Bytes.limit 8 = 2 ^ 64 := by decide
  rw [hlimit]
  refine Nat.lt_pow_two_of_testBit _ fun number hnumber => ?_
  rw [testBit_tableSet hfits, get_of_le hfits hnumber]
  rfl

/-! ## Writing and reading the counts -/

/-- The counts of the `tables` tables from number `first` on, as they are written. -/
def writeFrom (rows : RowCounts) (first tables : Nat) : List UInt8 :=
  ((List.range' first tables).filterMap fun number =>
    if rows.get number = 0 then none else some (number, rows.get number)).flatMap fun row =>
      Bytes.toLittleEndian 4 row.2

theorem writeFrom_succ (rows : RowCounts) (first tables : Nat) :
    writeFrom rows first (tables + 1) =
      (if rows.get first = 0 then [] else Bytes.toLittleEndian 4 (rows.get first)) ++
        writeFrom rows (first + 1) tables := by
  rw [writeFrom, List.range'_succ]
  by_cases hcount : rows.get first = 0
  · rw [List.filterMap_cons_none (by rw [if_pos hcount]), if_pos hcount]
    rfl
  · rw [List.filterMap_cons_some (by rw [if_neg hcount]), if_neg hcount]
    rfl

theorem reads_readFrom {rows : RowCounts} (hfits : rows.Fits) (first tables : Nat)
    (found : Array Nat) :
    Reads (readFrom (Builder.tableSet rows) first tables found) (writeFrom rows first tables)
      (found ++ ((List.range' first tables).map rows.get).toArray) := by
  induction tables generalizing first found with
  | zero => simpa [readFrom, writeFrom] using reads_pure found
  | succ tables ih =>
      have hpush : found ++ ((List.range' first (tables + 1)).map rows.get).toArray =
          found.push (rows.get first) ++
            ((List.range' (first + 1) tables).map rows.get).toArray := by
        simp [List.range'_succ]
      rw [hpush, writeFrom_succ, readFrom, testBit_tableSet hfits]
      by_cases hcount : rows.get first = 0
      · have hrest := ih (first + 1) (found.push (rows.get first))
        rw [if_pos hcount, hcount]
        rw [hcount] at hrest
        exact (reads_pure 0).bind hrest
      · have hpresent : (rows.get first != 0) = true := by simpa using hcount
        rw [if_neg hcount, if_pos hpresent]
        exact (reads_littleEndian (hfits.count_lt first)).bind
          (ih (first + 1) (found.push (rows.get first)))

theorem reads_read {rows : RowCounts} (hfits : rows.Fits) :
    Reads (read (Builder.tableSet rows)) (Builder.writeRowCounts rows) rows := by
  have hreads := reads_readFrom hfits 0 tableLimit #[]
  rw [Array.empty_append, ← List.range_eq_range', map_get_range hfits] at hreads
  have hwrite : writeFrom rows 0 tableLimit = Builder.writeRowCounts rows := by
    rw [writeFrom, ← List.range_eq_range']
    rfl
  rw [hwrite] at hreads
  exact hreads.bind_pure RowCounts.mk

end RowCounts

end PortablePdb
