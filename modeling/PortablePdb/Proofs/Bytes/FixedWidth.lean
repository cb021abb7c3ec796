import PortablePdb.Proofs.Bytes.Success

/-!
# Readers of a fixed width

A reader of a fixed width takes as many bytes as its parts take together, whatever the bytes are,
and fails for want of bytes alone.  Numbers are read from their places: the answer of a sequence
or a repetition of such readers is said by the offsets of its parts, which depend on the widths of
the parts before them and on nothing that was read.
-/

namespace PortablePdb

namespace Bytes

/-- The number in the `width` bytes from `offset` on. -/
def numberAt (bytes : List UInt8) (offset width : Nat) : Nat :=
  ofLittleEndian ((bytes.drop offset).take width)

theorem numberAt_drop (bytes : List UInt8) (start offset width : Nat) :
    numberAt (bytes.drop start) offset width = numberAt bytes (start + offset) width := by
  rw [numberAt, numberAt, List.drop_drop]

end Bytes

theorem Cursor.remaining_advance (cursor : Cursor) {count : Nat}
    (hcount : count ≤ cursor.remaining) :
    (cursor.advance count hcount).remaining = cursor.remaining - count := by
  simp only [remaining, advance]
  omega

theorem Cursor.advance_advance (cursor : Cursor) {first second : Nat}
    (hboth : first + second ≤ cursor.remaining) (hfirst : first ≤ cursor.remaining)
    (hsecond : second ≤ (cursor.advance first hfirst).remaining) :
    (cursor.advance first hfirst).advance second hsecond =
      cursor.advance (first + second) hboth := by
  simp only [advance, Nat.add_assoc]

/-- The second cursor is the first one `count` bytes further on. -/
def Cursor.Reaches (cursor : Cursor) (count : Nat) (next : Cursor) : Prop :=
  ∃ hcount : count ≤ cursor.remaining, next = cursor.advance count hcount

theorem Cursor.reaches_zero (cursor : Cursor) : cursor.Reaches 0 cursor :=
  ⟨Nat.zero_le _, rfl⟩

namespace Reader

variable {α β : Type}

structure FixedWidth (reader : Reader α) (width : Nat) (answer : List UInt8 → α) : Prop where
  reads : ∀ (cursor : Cursor) (hwidth : width ≤ cursor.remaining),
    reader cursor = .ok (answer cursor.unread) (cursor.advance width hwidth)
  lacks : ∀ cursor : Cursor, cursor.remaining < width →
    ∃ last, reader cursor = .error ⟨.invalidLength, []⟩ last

section

variable {reader : Reader α} {width : Nat} {answer : List UInt8 → α} {cursor last : Cursor}

theorem FixedWidth.eq_ok (hfixed : FixedWidth reader width answer) {value : α}
    (hresult : reader cursor = .ok value last) :
    ∃ hwidth : width ≤ cursor.remaining,
      value = answer cursor.unread ∧ last = cursor.advance width hwidth := by
  by_cases hwidth : width ≤ cursor.remaining
  · rw [hfixed.reads cursor hwidth] at hresult
    cases hresult
    exact ⟨hwidth, rfl, rfl⟩
  · obtain ⟨stop, hfailed⟩ := hfixed.lacks cursor (Nat.lt_of_not_le hwidth)
    rw [hfailed] at hresult
    cases hresult

theorem FixedWidth.of_reaches (hfixed : FixedWidth reader width answer) {start : Cursor}
    {count : Nat} (hreaches : start.Reaches count cursor) {value : α}
    (hresult : reader cursor = .ok value last) :
    value = answer (start.unread.drop count) ∧ start.Reaches (count + width) last := by
  obtain ⟨hcount, rfl⟩ := hreaches
  obtain ⟨hwidth, rfl, rfl⟩ := hfixed.eq_ok hresult
  have hboth : count + width ≤ start.remaining := by
    rw [Cursor.remaining_advance] at hwidth
    omega
  exact ⟨by rw [Cursor.unread_advance], hboth, start.advance_advance hboth hcount hwidth⟩

theorem FixedWidth.eq_error (hfixed : FixedWidth reader width answer) {error : ReadError}
    (hresult : reader cursor = .error error last) :
    cursor.remaining < width ∧ error = ⟨.invalidLength, []⟩ := by
  by_cases hwidth : width ≤ cursor.remaining
  · rw [hfixed.reads cursor hwidth] at hresult
    cases hresult
  · obtain ⟨stop, hfailed⟩ := hfixed.lacks cursor (Nat.lt_of_not_le hwidth)
    rw [hfailed] at hresult
    cases hresult
    exact ⟨Nat.lt_of_not_le hwidth, rfl⟩

theorem FixedWidth.of_eq (hfixed : FixedWidth reader width answer) {width' : Nat}
    {answer' : List UInt8 → α} (hwidth : width = width')
    (hanswer : ∀ unread, answer unread = answer' unread) : FixedWidth reader width' answer' := by
  obtain rfl : answer = answer' := funext hanswer
  subst hwidth
  exact hfixed

end

theorem bind_of_error {first : Reader α} {cursor last : Cursor} {error : ReadError}
    (hfirst : first cursor = .error error last) (second : α → Reader β) :
    (first >>= second) cursor = .error error last := by
  change EStateM.bind first second cursor = _
  simp only [EStateM.bind, hfirst]

theorem fixedWidth_pure (value : α) : FixedWidth (pure value) 0 fun _ => value where
  reads _ _ := rfl
  lacks _ hshort := absurd hshort (Nat.not_lt_zero _)

theorem FixedWidth.bind {first : Reader α} {second : α → Reader β} {width rest : Nat}
    {answer : List UInt8 → α} {next : α → List UInt8 → β} (hfirst : FixedWidth first width answer)
    (hsecond : ∀ value, FixedWidth (second value) rest (next value)) :
    FixedWidth (first >>= second) (width + rest)
      fun unread => next (answer unread) (unread.drop width) where
  reads cursor hwidth := by
    have hfront : width ≤ cursor.remaining := Nat.le_trans (Nat.le_add_right _ _) hwidth
    have hback : rest ≤ (cursor.advance width hfront).remaining := by
      rw [Cursor.remaining_advance]
      omega
    rw [bind_of_ok (hfirst.reads cursor hfront), (hsecond _).reads _ hback,
      Cursor.unread_advance, Cursor.advance_advance cursor hwidth]
  lacks cursor hshort := by
    by_cases hfront : width ≤ cursor.remaining
    · rw [bind_of_ok (hfirst.reads cursor hfront)]
      refine (hsecond _).lacks _ ?_
      rw [Cursor.remaining_advance]
      omega
    · obtain ⟨last, hfailed⟩ := hfirst.lacks cursor (Nat.lt_of_not_le hfront)
      exact ⟨last, bind_of_error hfailed second⟩

theorem FixedWidth.map {reader : Reader α} {width : Nat} {answer : List UInt8 → α}
    (hfixed : FixedWidth reader width answer) (result : α → β) :
    FixedWidth (reader >>= fun value => pure (result value)) width
      fun unread => result (answer unread) :=
  hfixed.bind fun value => fixedWidth_pure (result value)

theorem fixedWidth_littleEndian (width : Nat) :
    FixedWidth (littleEndian width) width fun unread => Bytes.numberAt unread 0 width where
  reads cursor hwidth := by
    rw [littleEndian, dif_pos hwidth, Cursor.ahead_eq_take_unread, Bytes.numberAt, List.drop_zero]
  lacks cursor hshort := ⟨cursor, dif_neg (Nat.not_le.2 hshort)⟩

/-- A number stands where the fields before it end. -/
theorem numberAt_of_reaches {start cursor last : Cursor} {count width value : Nat}
    (hreaches : start.Reaches count cursor) (hresult : littleEndian width cursor = .ok value last) :
    value = Bytes.numberAt start.unread count width ∧ start.Reaches (count + width) last := by
  obtain ⟨rfl, hlast⟩ := (fixedWidth_littleEndian width).of_reaches hreaches hresult
  exact ⟨Bytes.numberAt_drop _ _ _ _, hlast⟩

/-- The repetitions stand one after the other, each as wide as the reader. -/
theorem FixedWidth.replicate {reader : Reader α} {width : Nat} {answer : List UInt8 → α}
    (hfixed : FixedWidth reader width answer) (count : Nat) (found : Array α) :
    FixedWidth (reader.replicate count found) (count * width) fun unread =>
      found ++ ((List.range count).map fun index => answer (unread.drop (index * width))).toArray := by
  induction count generalizing found with
  | zero =>
      refine (fixedWidth_pure found).of_eq (Nat.zero_mul width).symm fun unread => ?_
      simp
  | succ count ih =>
      refine (hfixed.bind fun value => ih (found.push value)).of_eq ?_ fun unread => ?_
      · rw [Nat.succ_mul, Nat.add_comm]
      · have hplace : ∀ index, width + index * width = (index + 1) * width := fun index => by
          rw [Nat.succ_mul, Nat.add_comm]
        simp [List.range_succ_eq_map, List.drop_drop, hplace, Function.comp_def]

end Reader

end PortablePdb
