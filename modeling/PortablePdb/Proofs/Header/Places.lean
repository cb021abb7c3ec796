import PortablePdb.Header.TableStream
import PortablePdb.Proofs.Bytes.FixedWidth

/-!
# Where the header of the table stream keeps its fields

The header starts with fields of fixed widths.  Behind them stand the row counts, four bytes for
each table that is present, so the count of a table stands behind those of the present tables with
smaller numbers.
-/

namespace PortablePdb

open Reader

namespace RowCounts

/-- How many of the `tables` tables from number `first` on are present. -/
def presentFrom (present first tables : Nat) : Nat :=
  (List.range' first tables).countP present.testBit

theorem presentFrom_succ (present first tables : Nat) :
    presentFrom present first (tables + 1) =
      (if present.testBit first then 1 else 0) + presentFrom present (first + 1) tables := by
  rw [presentFrom, List.range'_succ, List.countP_cons, Nat.add_comm]
  rfl

/-- The row count of a table among counts that start with that of table `first`. -/
def countAt (present first : Nat) (bytes : List UInt8) (number : Nat) : Nat :=
  if present.testBit number then
    Bytes.numberAt bytes (4 * presentFrom present first (number - first)) 4
  else 0

theorem fixedWidth_count (present first : Nat) :
    FixedWidth (if present.testBit first then u32 else pure 0)
      (if present.testBit first then 4 else 0) fun unread => countAt present first unread first := by
  unfold countAt
  by_cases hpresent : present.testBit first = true
  · simp only [if_pos hpresent, Nat.sub_self, presentFrom, List.range'_zero, List.countP_nil,
      Nat.mul_zero]
    exact fixedWidth_littleEndian 4
  · simp only [if_neg hpresent]
    exact fixedWidth_pure 0

theorem countAt_drop {present first number : Nat} (hnumber : first < number)
    (bytes : List UInt8) :
    countAt present (first + 1) (bytes.drop (if present.testBit first then 4 else 0)) number =
      countAt present first bytes number := by
  have htables : number - first = (number - (first + 1)) + 1 := by omega
  have hplace : (if present.testBit first then 4 else 0) +
      4 * presentFrom present (first + 1) (number - (first + 1)) =
        4 * presentFrom present first (number - first) := by
    rw [htables, presentFrom_succ]
    split <;> omega
  rw [countAt, countAt, Bytes.numberAt_drop, hplace]

theorem readFrom_succ (present first tables : Nat) (found : Array Nat) :
    readFrom present first (tables + 1) found =
      (if present.testBit first then u32 else pure 0) >>= fun count =>
        readFrom present (first + 1) tables (found.push count) := by
  rw [readFrom]
  split <;> rfl

theorem fixedWidth_readFrom (present first tables : Nat) (found : Array Nat) :
    FixedWidth (readFrom present first tables found) (4 * presentFrom present first tables)
      fun unread =>
        found ++ ((List.range' first tables).map (countAt present first unread)).toArray := by
  induction tables generalizing first found with
  | zero => exact (fixedWidth_pure found).of_eq rfl fun unread => by simp
  | succ tables ih =>
      rw [readFrom_succ]
      refine ((fixedWidth_count present first).bind fun count =>
        ih (first + 1) (found.push count)).of_eq ?_ fun unread => ?_
      · rw [presentFrom_succ]
        split <;> omega
      · have hrest : (List.range' (first + 1) tables).map (countAt present (first + 1)
            (unread.drop (if present.testBit first then 4 else 0))) =
              (List.range' (first + 1) tables).map (countAt present first unread) := by
          refine List.map_congr_left fun number hnumber => countAt_drop ?_ unread
          exact (List.mem_range'_1.1 hnumber).1
        rw [hrest, List.range'_succ, List.map_cons]
        simp

theorem fixedWidth_read (present : Nat) :
    FixedWidth (read present) (4 * presentFrom present 0 tableLimit) fun unread =>
      ⟨((List.range tableLimit).map (countAt present 0 unread)).toArray⟩ := by
  refine ((fixedWidth_readFrom present 0 tableLimit #[]).map RowCounts.mk).of_eq rfl
    fun unread => ?_
  rw [Array.empty_append, List.range_eq_range']

end RowCounts

namespace TableStreamHeader

/-- How many of the tables with numbers below `number` are present. -/
def presentBelow (header : TableStreamHeader) (number : Nat) : Nat :=
  (List.range number).countP header.valid.testBit

/-- The header says what stands in the bytes at the places of its fields. -/
structure StoredIn (bytes : List UInt8) (header : TableStreamHeader) : Prop where
  heapSizes : header.heapSizes = Bytes.numberAt bytes 6 1
  valid : header.valid = Bytes.numberAt bytes 8 8
  sorted : header.sorted = Bytes.numberAt bytes 16 8
  rowCount : ∀ number, header.rows.get number =
    if header.valid.testBit number then
      Bytes.numberAt bytes (24 + 4 * header.presentBelow number) 4
    else 0

/-- No table has a number beyond those of the bits of eight bytes. -/
theorem testBit_numberAt_eq_false (bytes : List UInt8) (offset : Nat) {number : Nat}
    (hnumber : tableLimit ≤ number) : (Bytes.numberAt bytes offset 8).testBit number = false := by
  have hlimit : ∀ width, Bytes.limit width = 256 ^ width := fun width => by
    induction width with
    | zero => rfl
    | succ width ih => rw [Bytes.limit, ih, Nat.pow_succ, Nat.mul_comm]
  have hlength : ((bytes.drop offset).take 8).length ≤ 8 := List.length_take_le 8 _
  have hvalue := Bytes.ofLittleEndian_lt ((bytes.drop offset).take 8)
  rw [hlimit] at hvalue
  refine Nat.testBit_lt_two_pow (Nat.lt_of_lt_of_le hvalue ?_)
  calc 256 ^ ((bytes.drop offset).take 8).length
      ≤ 256 ^ 8 := Nat.pow_le_pow_right (by decide) hlength
    _ = 2 ^ tableLimit := by decide
    _ ≤ 2 ^ number := Nat.pow_le_pow_right (by decide) hnumber

theorem StoredIn.rowCount_eq_zero {bytes : List UInt8} {header : TableStreamHeader}
    (hstored : header.StoredIn bytes) (number : Nat) (hnumber : tableLimit ≤ number) :
    header.rows.get number = 0 := by
  have hbit := testBit_numberAt_eq_false bytes 8 hnumber
  rw [← hstored.valid] at hbit
  rw [hstored.rowCount, hbit]
  rfl

theorem storedIn_of_read {cursor next : Cursor} {header : TableStreamHeader}
    (hread : read cursor = .ok header next) :
    header.StoredIn cursor.unread ∧
      cursor.Reaches (24 + 4 * header.presentBelow tableLimit) next := by
  unfold read at hread
  obtain ⟨reserved, _, hreserved, hread⟩ := bind_eq_ok hread
  obtain ⟨-, hplace⟩ := numberAt_of_reaches cursor.reaches_zero hreserved
  split at hread
  · cases hread
  obtain ⟨major, _, hmajor, hread⟩ := bind_eq_ok hread
  obtain ⟨-, hplace⟩ := numberAt_of_reaches hplace hmajor
  obtain ⟨minor, _, hminor, hread⟩ := bind_eq_ok hread
  obtain ⟨-, hplace⟩ := numberAt_of_reaches hplace hminor
  split at hread
  · cases hread
  obtain ⟨heapSizes, _, hheapSizes, hread⟩ := bind_eq_ok hread
  obtain ⟨hheapSizes, hplace⟩ := numberAt_of_reaches hplace hheapSizes
  obtain ⟨unused, _, hunused, hread⟩ := bind_eq_ok hread
  obtain ⟨-, hplace⟩ := numberAt_of_reaches hplace hunused
  obtain ⟨valid, _, hvalid, hread⟩ := bind_eq_ok hread
  obtain ⟨hvalid, hplace⟩ := numberAt_of_reaches hplace hvalid
  obtain ⟨sorted, _, hsorted, hread⟩ := bind_eq_ok hread
  obtain ⟨hsorted, hplace⟩ := numberAt_of_reaches hplace hsorted
  obtain ⟨rows, _, hrows, hread⟩ := bind_eq_ok hread
  obtain ⟨hrows, hplace⟩ := (RowCounts.fixedWidth_read valid).of_reaches hplace hrows
  obtain ⟨rfl, rfl⟩ := pure_eq_ok hread
  refine ⟨⟨hheapSizes, hvalid, hsorted, fun number => ?_⟩, ?_⟩
  · rw [hrows]
    by_cases hnumber : number < tableLimit
    · simp [RowCounts.get, RowCounts.countAt, RowCounts.presentFrom, presentBelow,
        Bytes.numberAt_drop, List.range_eq_range', hnumber]
    · have hbit := testBit_numberAt_eq_false cursor.unread 8 (Nat.le_of_not_lt hnumber)
      rw [← hvalid] at hbit
      simp [RowCounts.get, hnumber, hbit]
  · rw [presentBelow, List.range_eq_range']
    exact hplace

end TableStreamHeader

end PortablePdb
