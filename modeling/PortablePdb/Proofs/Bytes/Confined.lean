import PortablePdb.Proofs.Bytes.WordRefinement

/-!
# Cursors stay inside their windows

Main statement: `Cursor.run_confined`.  Two cursors show the same window if the bytes of their
windows and their offsets are the same, wherever the windows lie.  Every operation leads from such
cursors to such cursors, so no sequence of operations tells a window from a copy of its bytes.
-/

namespace PortablePdb

namespace Cursor

/-! ## Windows that look the same -/

theorem size_bytes (cursor : Cursor) : cursor.bytes.size = cursor.length := by
  have hstop := cursor.stop_le_size
  rw [bytes, ByteArray.size_extract, length, Nat.min_eq_left hstop]

theorem offset_add_remaining (cursor : Cursor) :
    cursor.offset + cursor.remaining = cursor.length := by
  have hstart := cursor.start_le_position
  have hposition := cursor.position_le_stop
  simp only [offset, remaining, length]
  omega

theorem unread_eq_drop_bytes (cursor : Cursor) :
    cursor.unread = cursor.bytes.data.toList.drop cursor.offset := by
  have hstart := cursor.start_le_position
  have hposition := cursor.position_le_stop
  have hlength : cursor.stop - cursor.start - (cursor.position - cursor.start) =
      cursor.stop - cursor.position := by
    omega
  have hplace : cursor.start + (cursor.position - cursor.start) = cursor.position := by
    omega
  rw [unread_eq_take_drop, bytes, offset, remaining, ByteArray.data_extract,
    Array.toList_extract, List.extract_eq_take_drop, List.drop_take, List.drop_drop, hplace,
    hlength]

structure SameWindow (cursor other : Cursor) : Prop where
  bytes : cursor.bytes = other.bytes
  offset : cursor.offset = other.offset

/-- The cursor is what a cursor can become: its window only ever ends earlier. -/
structure Narrower (next cursor : Cursor) : Prop where
  buffer : next.buffer = cursor.buffer
  start : next.start = cursor.start
  stop : next.stop ≤ cursor.stop

section

variable {cursor other : Cursor}

theorem SameWindow.length (hsame : cursor.SameWindow other) : cursor.length = other.length := by
  rw [← cursor.size_bytes, ← other.size_bytes, hsame.bytes]

theorem SameWindow.remaining (hsame : cursor.SameWindow other) :
    cursor.remaining = other.remaining := by
  have hcursor := cursor.offset_add_remaining
  have hother := other.offset_add_remaining
  rw [hsame.offset, hsame.length] at hcursor
  omega

theorem SameWindow.unread (hsame : cursor.SameWindow other) : cursor.unread = other.unread := by
  rw [unread_eq_drop_bytes, unread_eq_drop_bytes, hsame.bytes, hsame.offset]

theorem offset_advance {count : Nat} (hcount : count ≤ cursor.remaining) :
    (cursor.advance count hcount).offset = cursor.offset + count := by
  have hstart := cursor.start_le_position
  simp only [offset, advance]
  omega

theorem SameWindow.advance (hsame : cursor.SameWindow other) {count : Nat}
    (hcursor : count ≤ cursor.remaining) (hother : count ≤ other.remaining) :
    (cursor.advance count hcursor).SameWindow (other.advance count hother) where
  bytes := hsame.bytes
  offset := by rw [offset_advance, offset_advance, hsame.offset]

theorem Narrower.refl (cursor : Cursor) : cursor.Narrower cursor :=
  ⟨rfl, rfl, Nat.le_refl _⟩

theorem Narrower.trans {first second third : Cursor} (hthird : third.Narrower second)
    (hsecond : second.Narrower first) : third.Narrower first :=
  ⟨hthird.buffer.trans hsecond.buffer, hthird.start.trans hsecond.start,
    Nat.le_trans hthird.stop hsecond.stop⟩

/-! ## Moves -/

/-- Neither succeeds, with one error, or both do and show the same window. -/
def Alike (first second : Except ReadError Cursor) : Prop :=
  (∃ error, first = .error error ∧ second = .error error) ∨
    ∃ next next', first = .ok next ∧ second = .ok next' ∧ next.SameWindow next'

/-- The bytes between two places that are counted from the start of the window. -/
theorem extract_eq_extract_bytes (first : Nat) {last : Nat}
    (hlast : cursor.start + last ≤ cursor.stop) :
    cursor.buffer.extract (cursor.start + first) (cursor.start + last) =
      cursor.bytes.extract first last := by
  rw [bytes, ByteArray.extract_extract, Nat.min_eq_left hlast]

theorem le_stop_iff (cursor : Cursor) (offset : Nat) :
    cursor.start + offset ≤ cursor.stop ↔ offset ≤ cursor.length := by
  have hstart := cursor.start_le_position
  have hposition := cursor.position_le_stop
  rw [length]
  omega

theorem position_le_iff (cursor : Cursor) (offset : Nat) :
    cursor.position ≤ cursor.start + offset ↔ cursor.offset ≤ offset := by
  have hstart := cursor.start_le_position
  rw [Cursor.offset]
  omega

theorem SameWindow.window (hsame : cursor.SameWindow other) (offset length : Nat) :
    Alike (cursor.window offset length) (other.window offset length) := by
  have hiff : cursor.start + offset + length ≤ cursor.stop ↔
      other.start + offset + length ≤ other.stop := by
    rw [Nat.add_assoc, le_stop_iff, hsame.length, ← le_stop_iff, Nat.add_assoc]
  by_cases hinside : cursor.start + offset + length ≤ cursor.stop
  · have hinside' := hiff.1 hinside
    refine .inr ⟨_, _, dif_pos hinside, dif_pos hinside', ?_, ?_⟩
    · rw [Nat.add_assoc] at hinside hinside'
      simp only [Cursor.bytes, Nat.add_assoc]
      rw [extract_eq_extract_bytes offset hinside, extract_eq_extract_bytes offset hinside',
        hsame.bytes]
    · simp only [Cursor.offset, Nat.sub_self]
  · exact .inl ⟨_, dif_neg hinside, dif_neg (mt hiff.2 hinside)⟩

theorem SameWindow.truncate (hsame : cursor.SameWindow other) (length : Nat) :
    Alike (cursor.truncate length) (other.truncate length) := by
  have hiff : (cursor.position ≤ cursor.start + length ∧ cursor.start + length ≤ cursor.stop) ↔
      other.position ≤ other.start + length ∧ other.start + length ≤ other.stop := by
    rw [position_le_iff, le_stop_iff, hsame.offset, hsame.length, ← position_le_iff,
      ← le_stop_iff]
  by_cases hinside : cursor.position ≤ cursor.start + length ∧ cursor.start + length ≤ cursor.stop
  · have hinside' := hiff.1 hinside
    refine .inr ⟨_, _, dif_pos hinside, dif_pos hinside', ?_, hsame.offset⟩
    have hcursor := extract_eq_extract_bytes 0 hinside.2
    have hother := extract_eq_extract_bytes 0 hinside'.2
    rw [← hsame.bytes, ← hcursor] at hother
    exact hother.symm
  · exact .inl ⟨_, dif_neg hinside, dif_neg (mt hiff.2 hinside)⟩

theorem SameWindow.seek (hsame : cursor.SameWindow other) (offset : Nat) :
    Alike (cursor.seek offset) (other.seek offset) := by
  have hiff : cursor.start + offset ≤ cursor.stop ↔ other.start + offset ≤ other.stop := by
    rw [le_stop_iff, hsame.length, ← le_stop_iff]
  by_cases hinside : cursor.start + offset ≤ cursor.stop
  · refine .inr ⟨_, _, dif_pos hinside, dif_pos (hiff.1 hinside), hsame.bytes, ?_⟩
    simp only [Cursor.offset, Nat.add_sub_cancel_left]
  · exact .inl ⟨_, dif_neg hinside, dif_neg (mt hiff.2 hinside)⟩

theorem SameWindow.skip (hsame : cursor.SameWindow other) (distance : Int) :
    Alike (cursor.skip distance) (other.skip distance) := by
  have hinside_iff (cursor : Cursor) :
      ((cursor.start : Int) ≤ cursor.position + distance ∧
        (cursor.position : Int) + distance ≤ cursor.stop) ↔
      0 ≤ (cursor.offset : Int) + distance ∧ (cursor.offset : Int) + distance ≤ cursor.length := by
    have hstart := cursor.start_le_position
    have hposition := cursor.position_le_stop
    rw [Cursor.offset, Cursor.length]
    omega
  have hiff : ((cursor.start : Int) ≤ cursor.position + distance ∧
        (cursor.position : Int) + distance ≤ cursor.stop) ↔
      (other.start : Int) ≤ other.position + distance ∧
        (other.position : Int) + distance ≤ other.stop := by
    rw [hinside_iff, hinside_iff, hsame.offset, hsame.length]
  by_cases hinside : (cursor.start : Int) ≤ cursor.position + distance ∧
      (cursor.position : Int) + distance ≤ cursor.stop
  · have hoffset := hsame.offset
    have hstart := cursor.start_le_position
    have hstart' := other.start_le_position
    refine .inr ⟨_, _, dif_pos hinside, dif_pos (hiff.1 hinside), hsame.bytes, ?_⟩
    simp only [Cursor.offset] at hoffset ⊢
    omega
  · exact .inl ⟨_, dif_neg hinside, dif_neg (mt hiff.2 hinside)⟩

end

end Cursor

/-! ## Readers -/

/-- The reader stays where it is if it fails, its window never grows, and all it can tell of the
cursor is what the window shows. -/
structure Reader.Confined {α : Type} (reader : Reader α) : Prop where
  stays : ∀ cursor error, (reader.outcome cursor).1 = .error error →
    (reader.outcome cursor).2 = cursor
  narrower : ∀ cursor, (reader.outcome cursor).2.Narrower cursor
  alike : ∀ cursor other, cursor.SameWindow other →
    (reader.outcome cursor).1 = (reader.outcome other).1 ∧
      (reader.outcome cursor).2.SameWindow (reader.outcome other).2

namespace Reader

variable {α β : Type}

theorem Confined.map {reader : Reader α} (hconfined : Confined reader) (answer : α → β) :
    Confined (answer <$> reader) where
  stays cursor error hfailed := by
    rw [outcome_map] at hfailed ⊢
    cases hresult : (reader.outcome cursor).1 with
    | ok value =>
        rw [hresult] at hfailed
        cases hfailed
    | error error => exact hconfined.stays cursor error hresult
  narrower cursor := by
    rw [outcome_map]
    exact hconfined.narrower cursor
  alike cursor other hsame := by
    obtain ⟨hresult, hnext⟩ := hconfined.alike cursor other hsame
    rw [outcome_map, outcome_map, hresult]
    exact ⟨rfl, hnext⟩

theorem Takes.confined {reader : Reader α} {front : Front α} (htakes : Takes reader front) :
    Confined reader where
  stays cursor error hfailed := by
    rcases htakes cursor with ⟨value, count, hcount, -, hread⟩ | ⟨error, -, hread⟩
    · rw [hread] at hfailed
      cases hfailed
    · rw [hread]
  narrower cursor := by
    rcases htakes cursor with ⟨value, count, hcount, -, hread⟩ | ⟨error, -, hread⟩
    · rw [hread]
      exact ⟨rfl, rfl, Nat.le_refl _⟩
    · rw [hread]
      exact .refl cursor
  alike cursor other hsame := by
    have hunread := hsame.unread
    rcases htakes cursor with ⟨value, count, hcount, hfront, hread⟩ | ⟨error, hfront, hread⟩
    · rw [hunread] at hfront
      obtain ⟨hcount', hread'⟩ := htakes.outcome_ok hfront
      rw [hread, hread']
      exact ⟨rfl, hsame.advance hcount hcount'⟩
    · rw [hunread] at hfront
      rw [hread, htakes.outcome_error hfront]
      exact ⟨rfl, hsame⟩

theorem confined_move {step : Cursor → Except ReadError Cursor}
    (hnarrower : ∀ cursor next, step cursor = .ok next → next.Narrower cursor)
    (halike : ∀ cursor other, cursor.SameWindow other →
      Cursor.Alike (step cursor) (step other)) :
    Confined (move step) where
  stays cursor error hfailed := by
    rw [outcome_move] at hfailed ⊢
    cases hstep : step cursor with
    | ok next =>
        rw [hstep] at hfailed
        cases hfailed
    | error error => rfl
  narrower cursor := by
    rw [outcome_move]
    cases hstep : step cursor with
    | ok next => exact hnarrower cursor next hstep
    | error error => exact .refl cursor
  alike cursor other hsame := by
    rw [outcome_move, outcome_move]
    rcases halike cursor other hsame with
      ⟨error, hfirst, hsecond⟩ | ⟨next, next', hfirst, hsecond, hnext⟩
    · rw [hfirst, hsecond]
      exact ⟨rfl, hsame⟩
    · rw [hfirst, hsecond]
      exact ⟨rfl, hnext⟩

end Reader

theorem Cursor.narrower_of_truncate {cursor next : Cursor} {length : Nat}
    (htruncate : cursor.truncate length = .ok next) : next.Narrower cursor := by
  unfold truncate at htruncate
  split at htruncate
  case isTrue hinside =>
      cases htruncate
      exact ⟨rfl, rfl, hinside.2⟩
  case isFalse => cases htruncate

theorem Cursor.narrower_of_seek {cursor next : Cursor} {offset : Nat}
    (hseek : cursor.seek offset = .ok next) : next.Narrower cursor := by
  unfold seek at hseek
  split at hseek
  · cases hseek
    exact ⟨rfl, rfl, Nat.le_refl _⟩
  · cases hseek

theorem Cursor.narrower_of_skip {cursor next : Cursor} {distance : Int}
    (hskip : cursor.skip distance = .ok next) : next.Narrower cursor := by
  unfold skip at hskip
  split at hskip
  · cases hskip
    exact ⟨rfl, rfl, Nat.le_refl _⟩
  · cases hskip

theorem Operation.confined (operation : Operation) : operation.reader.Confined := by
  cases operation with
  | truncate length =>
      exact (Reader.confined_move (fun _ _ => Cursor.narrower_of_truncate)
        fun _ _ hsame => hsame.truncate length.toNat).map _
  | seek offset =>
      exact (Reader.confined_move (fun _ _ => Cursor.narrower_of_seek)
        fun _ _ hsame => hsame.seek offset.toNat).map _
  | skip distance =>
      exact (Reader.confined_move (fun _ _ => Cursor.narrower_of_skip)
        fun _ _ hsame => hsame.skip distance.toInt).map _
  | peek => exact Reader.peek_takes.confined.map _
  | u8 => exact (Reader.littleEndian_takes 1).confined.map _
  | u16 => exact (Reader.littleEndian_takes 2).confined.map _
  | u32 => exact (Reader.littleEndian_takes 4).confined.map _
  | u64 => exact (Reader.littleEndian_takes 8).confined.map _
  | bytes count => exact (Reader.bytes_takes count.toNat).confined.map _
  | rest => exact Reader.rest_takes.confined.map _
  | compressedUnsigned => exact (Reader.selfDelimited_takes _ _).confined.map _
  | compressedSigned => exact (Reader.selfDelimited_takes _ _).confined.map _
  | heapIndex heapSizes heap => exact (Reader.littleEndian_takes _).confined.map _
  | tableIndex header table => exact (Reader.littleEndian_takes _).confined.map _

end PortablePdb
