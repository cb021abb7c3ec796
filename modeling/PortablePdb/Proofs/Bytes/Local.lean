import PortablePdb.Proofs.Bytes.Fronts
import PortablePdb.Proofs.Bytes.Success

/-!
# Readers that look only at what they take

A reader is *local* if each of its successes is decided by the bytes it takes: over any window that
goes on with the same bytes it answers the same, whatever follows them.  Sequences and repetitions
of local readers are local, so a success carries over to a longer and to a shorter window as long
as the bytes it took are there.
-/

namespace PortablePdb.Reader

variable {α β : Type}

structure Took (reader : Reader α) (cursor next : Cursor) (value : α) : Prop where
  stop : next.stop = cursor.stop
  front : ∃ front, cursor.unread = front ++ next.unread ∧ Reads reader front value

structure Local (reader : Reader α) : Prop where
  took : ∀ {cursor next : Cursor} {value : α}, reader cursor = .ok value next →
    Took reader cursor next value

theorem local_pure (value : α) : Local (pure value) := by
  refine ⟨fun {cursor next found} hresult => ?_⟩
  obtain ⟨rfl, rfl⟩ := pure_eq_ok hresult
  exact ⟨rfl, [], rfl, reads_pure value⟩

theorem local_ofExcept (result : Except ReadError α) : Local (ofExcept result) := by
  refine ⟨fun {cursor next value} hresult => ?_⟩
  obtain ⟨hfound, rfl⟩ := ofExcept_eq_ok hresult
  exact ⟨rfl, [], rfl, reads_ofExcept hfound⟩

theorem Local.bind {first : Reader α} {second : α → Reader β} (hfirst : Local first)
    (hsecond : ∀ value, Local (second value)) : Local (first >>= second) := by
  refine ⟨fun {cursor next result} hresult => ?_⟩
  obtain ⟨value, middle, hvalue, hlast⟩ := bind_eq_ok hresult
  obtain ⟨hstop, front, hfront, hreads⟩ := hfirst.took hvalue
  obtain ⟨hstop', back, hback, hreads'⟩ := (hsecond value).took hlast
  refine ⟨hstop'.trans hstop, front ++ back, ?_, hreads.bind hreads'⟩
  rw [hfront, hback, List.append_assoc]

theorem Local.map {reader : Reader α} (hlocal : Local reader) (answer : α → β) :
    Local (answer <$> reader) := by
  rw [← bind_pure_comp]
  exact hlocal.bind fun value => local_pure (answer value)

/-- A failure in place of what would come next only leaves fewer successes. -/
theorem local_fail_bind (fault : Fault) (second : α → Reader β) :
    Local (fail fault >>= second) := by
  refine ⟨fun {cursor next result} hresult => ?_⟩
  obtain ⟨value, middle, hvalue, -⟩ := bind_eq_ok hresult
  exact absurd hvalue fail_ne_ok

theorem Local.under {reader : Reader α} (hlocal : Local reader) (fault : Fault) :
    Local (reader.under fault) := by
  refine ⟨fun {cursor next value} hresult => ?_⟩
  obtain ⟨hstop, front, hfront, hreads⟩ := hlocal.took (under_eq_ok hresult)
  exact ⟨hstop, front, hfront, hreads.under fault⟩

theorem bytes_eq_ok {count : Nat} {cursor next : Cursor} {found : ByteArray}
    (hresult : bytes count cursor = .ok found next) :
    next.stop = cursor.stop ∧ found.size = count ∧
      cursor.unread = found.data.toList ++ next.unread := by
  unfold bytes at hresult
  split at hresult
  case isTrue hcount =>
      cases hresult
      refine ⟨rfl, ?_, ?_⟩
      · rw [Cursor.size_ahead, Nat.min_eq_left hcount]
      · rw [Cursor.unread_advance, Cursor.ahead_eq_take_unread, List.take_append_drop]
  case isFalse => cases hresult

theorem local_bytes (count : Nat) : Local (bytes count) := by
  refine ⟨fun {cursor next found} hresult => ?_⟩
  obtain ⟨hstop, rfl, hunread⟩ := bytes_eq_ok hresult
  have hreads := reads_bytes found.data.toList
  rw [toByteArray_toList] at hreads
  exact ⟨hstop, found.data.toList, hunread, hreads⟩

theorem local_littleEndian (width : Nat) : Local (littleEndian width) := by
  rw [littleEndian_eq_map]
  exact (local_bytes width).map fun found => Bytes.ofLittleEndian found.data.toList

theorem Local.replicate {reader : Reader α} (hlocal : Local reader) (count : Nat)
    (found : Array α) : Local (reader.replicate count found) := by
  induction count generalizing found with
  | zero => exact local_pure found
  | succ count ih => exact hlocal.bind fun value => ih (found.push value)

/-- A success over one buffer is a success over every buffer that starts with the bytes it took. -/
theorem Local.ofBytes {reader : Reader α} (hlocal : Local reader) {buffer other : ByteArray}
    {next : Cursor} {value : α} (hresult : reader (Cursor.ofBytes buffer) = .ok value next)
    (hsame : other.data.toList.take next.position = buffer.data.toList.take next.position) :
    ∃ next', reader (Cursor.ofBytes other) = .ok value next' ∧ next'.position = next.position := by
  have hplace {start : ByteArray} {last : Cursor} (hstop : last.stop = start.size)
      {front : List UInt8} (hunread : start.data.toList = front ++ last.unread) :
      front.length = last.position := by
    have hlength := congrArg List.length hunread
    have hposition := last.position_le_stop
    rw [Array.length_toList, ByteArray.size_data, List.length_append, last.length_unread,
      Cursor.remaining] at hlength
    omega
  obtain ⟨hstop, front, hfront, hreads⟩ := hlocal.took hresult
  rw [Cursor.unread_ofBytes] at hfront
  have hlength := hplace hstop hfront
  have hother : (Cursor.ofBytes other).unread = front ++ other.data.toList.drop front.length := by
    rw [hfront, List.take_left' hlength] at hsame
    rw [Cursor.unread_ofBytes, hlength, ← hsame, List.take_append_drop]
  obtain ⟨next', hread, hrest⟩ := hreads (Cursor.ofBytes other) _ hother
  refine ⟨next', hread, ?_⟩
  obtain ⟨hstop', -, -, -⟩ := hlocal.took hread
  rw [Cursor.unread_ofBytes, ← hrest] at hother
  rw [← hlength, hplace hstop' hother]

end PortablePdb.Reader
