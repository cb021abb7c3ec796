import PortablePdb.Proofs.Bytes.Reading

/-!
# What a reader's outcome depends on

A primitive reader looks at nothing but the unread bytes of its window.  From them alone it either
answers with a value and moves on by a count of them, or fails and stays where it is.
-/

namespace PortablePdb

namespace Cursor

theorem unread_eq_take_drop (cursor : Cursor) :
    cursor.unread = (cursor.buffer.data.toList.drop cursor.position).take cursor.remaining := by
  have hstop := cursor.position_le_stop
  have hend : cursor.position + (cursor.stop - cursor.position) = cursor.stop := by omega
  simp only [unread, ahead, remaining, ByteArray.data_extract, hend, Nat.min_self,
    Array.toList_extract, List.extract_eq_take_drop]

theorem head?_unread {cursor : Cursor} (hnext : cursor.position < cursor.stop) :
    cursor.unread.head? = cursor.buffer[cursor.position]? := by
  have hsize : cursor.position < cursor.buffer.size :=
    Nat.lt_of_lt_of_le hnext cursor.stop_le_size
  rw [unread_eq_take_drop, remaining, List.head?_take, List.head?_drop, if_neg (by omega),
    getElem?_pos cursor.buffer cursor.position hsize, Array.getElem?_toList,
    Array.getElem?_eq_getElem hsize]
  rfl

theorem unread_eq_nil_iff (cursor : Cursor) :
    cursor.unread = [] ↔ ¬cursor.position < cursor.stop := by
  rw [List.eq_nil_iff_length_eq_zero, length_unread, remaining]
  omega

theorem ahead_eq_toByteArray (cursor : Cursor) (count : Nat) :
    cursor.ahead count = (cursor.unread.take count).toByteArray := by
  rw [← ahead_eq_take_unread, toByteArray_toList]

end Cursor

namespace Reader

variable {α β : Type}

/-- What a reader answers and where it leaves the cursor, also when it fails. -/
def outcome (reader : Reader α) (cursor : Cursor) : Except ReadError α × Cursor :=
  match reader cursor with
  | .ok value next => (.ok value, next)
  | .error error next => (.error error, next)

/-- What unread bytes are read as: a value with the count of bytes it takes, or an error. -/
abbrev Front (α : Type) := List UInt8 → Except ReadError (α × Nat)

def Takes (reader : Reader α) (front : Front α) : Prop :=
  ∀ cursor : Cursor,
    (∃ value count, ∃ hcount : count ≤ cursor.remaining, front cursor.unread = .ok (value, count) ∧
      reader.outcome cursor = (.ok value, cursor.advance count hcount)) ∨
    ∃ error, front cursor.unread = .error error ∧
      reader.outcome cursor = (.error error, cursor)

theorem outcome_map (answer : α → β) (reader : Reader α) (cursor : Cursor) :
    (answer <$> reader).outcome cursor =
      ((reader.outcome cursor).1.map answer, (reader.outcome cursor).2) := by
  simp only [outcome]
  change (match EStateM.map answer reader cursor with
    | .ok value next => _ | .error error next => _) = _
  unfold EStateM.map
  cases reader cursor <;> rfl

theorem outcome_move (step : Cursor → Except ReadError Cursor) (cursor : Cursor) :
    (move step).outcome cursor =
      match step cursor with
      | .ok next => (.ok (), next)
      | .error error => (.error error, cursor) := by
  unfold outcome move
  cases step cursor <;> rfl

theorem Takes.map {reader : Reader α} {front : Front α} (htakes : Takes reader front)
    (answer : α → β) :
    Takes (answer <$> reader) fun unread =>
      (front unread).map fun found => (answer found.1, found.2) := by
  intro cursor
  dsimp only
  rw [outcome_map]
  rcases htakes cursor with ⟨value, count, hcount, hfront, hread⟩ | ⟨error, hfront, hread⟩
  · exact .inl ⟨answer value, count, hcount, by rw [hfront]; rfl, by rw [hread]; rfl⟩
  · exact .inr ⟨error, by rw [hfront]; rfl, by rw [hread]; rfl⟩

section
variable {reader : Reader α} {front : Front α} {cursor : Cursor}

theorem Takes.outcome_ok (htakes : Takes reader front) {value : α} {count : Nat}
    (hfront : front cursor.unread = .ok (value, count)) :
    ∃ hcount : count ≤ cursor.remaining,
      reader.outcome cursor = (.ok value, cursor.advance count hcount) := by
  rcases htakes cursor with ⟨value', count', hcount, hfront', hread⟩ | ⟨error, hfront', -⟩
  · rw [hfront] at hfront'
    cases hfront'
    exact ⟨hcount, hread⟩
  · rw [hfront] at hfront'
    cases hfront'

theorem Takes.outcome_error (htakes : Takes reader front) {error : ReadError}
    (hfront : front cursor.unread = .error error) :
    reader.outcome cursor = (.error error, cursor) := by
  rcases htakes cursor with ⟨value', count', hcount, hfront', hread⟩ | ⟨error', hfront', hread⟩
  · rw [hfront] at hfront'
    cases hfront'
  · rw [hfront] at hfront'
    cases hfront'
    exact hread

end

/-! ## Primitive readers -/

def frontByte : Front UInt8
  | [] => .error ⟨.invalidLength, []⟩
  | byte :: _ => .ok (byte, 0)

def frontBytes (count : Nat) : Front ByteArray := fun unread =>
  if count ≤ unread.length then .ok ((unread.take count).toByteArray, count)
  else .error ⟨.invalidLength, []⟩

def frontLittleEndian (width : Nat) : Front Nat := fun unread =>
  (frontBytes width unread).map fun found => (Bytes.ofLittleEndian found.1.data.toList, found.2)

def frontNumber (decode : List UInt8 → Option (α × Nat)) (fault : Fault) : Front α := fun unread =>
  match decode (unread.take 4) with
  | some (value, width) =>
      if width ≤ unread.length then .ok (value, width) else .error ⟨fault, []⟩
  | none => .error ⟨fault, []⟩

theorem peek_takes : Takes peek frontByte := by
  intro cursor
  unfold outcome peek
  by_cases hnext : cursor.position < cursor.stop
  · have hsize : cursor.position < cursor.buffer.size :=
      Nat.lt_of_lt_of_le hnext cursor.stop_le_size
    have hhead := Cursor.head?_unread hnext
    rw [getElem?_pos cursor.buffer cursor.position hsize] at hhead
    obtain ⟨tail, hunread⟩ := List.head?_eq_some_iff.1 hhead
    exact .inl ⟨_, 0, Nat.zero_le _, by rw [hunread]; rfl, by rw [dif_pos hnext]; rfl⟩
  · have hunread := cursor.unread_eq_nil_iff.2 hnext
    exact .inr ⟨_, by rw [hunread]; rfl, by rw [dif_neg hnext]⟩

theorem bytes_takes (count : Nat) : Takes (bytes count) (frontBytes count) := by
  intro cursor
  unfold outcome bytes frontBytes
  by_cases hcount : count ≤ cursor.remaining
  · refine .inl ⟨cursor.ahead count, count, hcount, ?_, by rw [dif_pos hcount]⟩
    rw [cursor.length_unread, if_pos hcount, cursor.ahead_eq_toByteArray]
  · exact .inr ⟨_, by rw [cursor.length_unread, if_neg hcount], by rw [dif_neg hcount]⟩

theorem rest_takes : Takes rest fun unread => .ok (unread.toByteArray, unread.length) := by
  intro cursor
  dsimp only
  have hunread : cursor.ahead cursor.remaining = cursor.unread.toByteArray := by
    rw [cursor.ahead_eq_toByteArray, ← cursor.length_unread, List.take_length]
  refine .inl ⟨cursor.ahead cursor.remaining, cursor.remaining, Nat.le_refl _, ?_, rfl⟩
  rw [hunread, cursor.length_unread]

theorem littleEndian_eq_map (width : Nat) :
    littleEndian width = (fun found => Bytes.ofLittleEndian found.data.toList) <$> bytes width := by
  funext cursor
  change _ = EStateM.map _ (bytes width) cursor
  unfold littleEndian EStateM.map bytes
  by_cases hwidth : width ≤ cursor.remaining
  · rw [dif_pos hwidth, dif_pos hwidth]
  · rw [dif_neg hwidth, dif_neg hwidth]

theorem littleEndian_takes (width : Nat) :
    Takes (littleEndian width) (frontLittleEndian width) := by
  rw [littleEndian_eq_map]
  exact (bytes_takes width).map fun found => Bytes.ofLittleEndian found.data.toList

theorem selfDelimited_takes (decode : List UInt8 → Option (α × Nat)) (fault : Fault) :
    Takes (selfDelimited decode fault) (frontNumber decode fault) := by
  intro cursor
  unfold outcome selfDelimited frontNumber
  rw [cursor.ahead_eq_take_unread, cursor.length_unread]
  cases decode (cursor.unread.take 4) with
  | none => exact .inr ⟨_, rfl, rfl⟩
  | some found =>
      by_cases hwidth : found.2 ≤ cursor.remaining
      · exact .inl ⟨found.1, found.2, hwidth, if_pos hwidth, by simp only [dif_pos hwidth]⟩
      · exact .inr ⟨_, if_neg hwidth, by simp only [dif_neg hwidth]⟩

theorem selfDelimited_map (decode : List UInt8 → Option (α × Nat)) (answer : α → β)
    (fault : Fault) :
    selfDelimited (fun bytes => (decode bytes).map fun found => (answer found.1, found.2)) fault =
      answer <$> selfDelimited decode fault := by
  funext cursor
  change _ = EStateM.map answer (selfDelimited decode fault) cursor
  unfold EStateM.map selfDelimited
  dsimp only
  cases decode (cursor.ahead 4).data.toList with
  | none => rfl
  | some found =>
      by_cases hwidth : found.2 ≤ cursor.remaining
      · simp only [Option.map_some, dif_pos hwidth]
      · simp only [Option.map_some, dif_neg hwidth]

end Reader

end PortablePdb
