import PortablePdb.Proofs.Bytes.Confined

/-!
# Sequences of operations on cursors

Main statement: `Cursor.run_confined`.  Whatever is called on a cursor over a whole buffer and on
the windows opened from it, the 64-bit machine gets through without a crash and sees what the
cursors show, every cursor left behind could be replaced by one over a copy of its window, and
failed calls and the ends of windows are as harmless as they are for a single call.
-/

namespace PortablePdb

open Implementation

/-! ## The machine and the cursors -/

theorem Cursor.window_words {cursor : Cursor} (hsize : cursor.buffer.size < Word.limit)
    (offset length : Nat) :
    cursor.words.window offset length = (cursor.window offset length).map Cursor.words := by
  have hstop := cursor.stop_le_size
  change WordCursor.window offset length
    ⟨cursor.buffer, cursor.start, cursor.position, cursor.stop⟩ = _
  rw [WordCursor.window, Cursor.window]
  dsimp only
  by_cases hstart : cursor.start + offset < Word.limit
  · rw [Word.add?_of_lt hstart]
    dsimp only
    by_cases hend : cursor.start + offset + length < Word.limit
    · rw [Word.add?_of_lt hend]
      dsimp only
      by_cases hinside : cursor.start + offset + length ≤ cursor.stop
      · rw [if_neg (Nat.not_lt.2 hinside), dif_pos hinside]
        rfl
      · rw [if_pos (Nat.lt_of_not_le hinside), dif_neg hinside]
        rfl
    · rw [Word.add?, if_neg hend, dif_neg (by omega)]
      rfl
  · rw [Word.add?, if_neg hstart, dif_neg (by omega)]
    rfl

theorem Cursor.view_words (cursor : Cursor) :
    cursor.words.view =
      some ⟨cursor.offset, cursor.length, cursor.remaining, cursor.atEnd, cursor.isEmpty⟩ := by
  have hstart := cursor.start_le_position
  have hposition := cursor.position_le_stop
  have hoffset : Word.sub? cursor.words.position cursor.words.start = some cursor.offset :=
    Word.sub?_of_le hstart
  have hlength : Word.sub? cursor.words.stop cursor.words.start = some cursor.length :=
    Word.sub?_of_le (Nat.le_trans hstart hposition)
  have hremaining : Word.sub? cursor.words.stop cursor.words.position = some cursor.remaining :=
    Word.sub?_of_le hposition
  have hend : (!decide (cursor.words.position < cursor.words.stop)) = cursor.atEnd := by
    rw [Cursor.atEnd, Bool.eq_iff_iff, Bool.not_eq_true', decide_eq_false_iff_not, beq_iff_eq]
    change ¬cursor.position < cursor.stop ↔ _
    omega
  simp only [WordCursor.view, hoffset, hlength, hremaining, hend, bind, Option.bind]
  rfl

theorem simulates_words (holds : ByteArray → Prop)
    (hholds : ∀ buffer, holds buffer → buffer.size < Word.limit) :
    Simulates Cursor.implementation WordCursor.implementation
      fun cursor words => holds cursor.buffer ∧ words = cursor.words where
  window offset length cursor words hrel := by
    obtain ⟨hbuffer, rfl⟩ := hrel
    have hwindow := Cursor.window_words (hholds _ hbuffer) offset length
    change (∃ error, cursor.window offset length = .error error ∧
        cursor.words.window offset length = .error error) ∨
      ∃ opened opened', cursor.window offset length = .ok opened ∧
        cursor.words.window offset length = .ok opened' ∧ _
    cases hopened : cursor.window offset length with
    | error error => exact .inl ⟨error, rfl, by rw [hwindow, hopened]; rfl⟩
    | ok opened =>
        have hsame : opened.buffer = cursor.buffer := by
          unfold Cursor.window at hopened
          split at hopened
          · cases hopened
            rfl
          · cases hopened
        exact .inr ⟨opened, opened.words, rfl, by rw [hwindow, hopened]; rfl,
          hsame ▸ hbuffer, rfl⟩
  perform operation cursor words hrel := by
    obtain ⟨hbuffer, rfl⟩ := hrel
    have hnarrower := operation.confined.narrower cursor
    exact ⟨(operation.reader.outcome cursor).1, (operation.reader.outcome cursor).2, _, rfl,
      operation.implements_words cursor (hholds _ hbuffer), hnarrower.buffer ▸ hbuffer, rfl⟩
  view cursor words hrel := by
    obtain ⟨-, rfl⟩ := hrel
    exact ⟨_, rfl, cursor.view_words⟩

/-! ## Cursors that show the same window -/

theorem Cursor.atEnd_eq (cursor : Cursor) : cursor.atEnd = (cursor.remaining == 0) := by
  have hposition := cursor.position_le_stop
  rw [atEnd, remaining, Bool.eq_iff_iff, beq_iff_eq, beq_iff_eq]
  omega

theorem simulates_sameWindow :
    Simulates Cursor.implementation Cursor.implementation Cursor.SameWindow where
  window offset length _ _ hsame := hsame.window offset length
  perform operation cursor other hsame := by
    obtain ⟨hresult, hnext⟩ := operation.confined.alike cursor other hsame
    exact ⟨(operation.reader.outcome cursor).1, (operation.reader.outcome cursor).2,
      (operation.reader.outcome other).2, rfl, by rw [hresult]; rfl, hnext⟩
  view cursor other hsame := by
    refine ⟨_, rfl, ?_⟩
    change some (View.mk _ _ _ _ _) = some (View.mk _ _ _ _ _)
    rw [cursor.atEnd_eq, other.atEnd_eq, Cursor.isEmpty, Cursor.isEmpty, hsame.offset,
      hsame.length, hsame.remaining]

namespace Cursor

/-- The cursor over a copy of the window. -/
def copy (cursor : Cursor) : Cursor where
  buffer := cursor.bytes
  start := 0
  position := cursor.offset
  stop := cursor.length
  start_le_position := Nat.zero_le _
  position_le_stop := Nat.sub_le_sub_right cursor.position_le_stop cursor.start
  stop_le_size := Nat.le_of_eq cursor.size_bytes.symm

theorem seek_ofBytes_bytes (cursor : Cursor) :
    (ofBytes cursor.bytes).seek cursor.offset = .ok cursor.copy := by
  have hinside : 0 + cursor.offset ≤ cursor.bytes.size := by
    rw [Nat.zero_add, cursor.size_bytes]
    exact cursor.copy.position_le_stop
  refine (dif_pos hinside).trans ?_
  simp only [copy, ofBytes, Nat.zero_add, cursor.size_bytes]

theorem sameWindow_copy (cursor : Cursor) : cursor.SameWindow cursor.copy where
  bytes := by
    change cursor.bytes = cursor.bytes.extract 0 cursor.length
    rw [← cursor.size_bytes, ByteArray.extract_zero_size]
  offset := (Nat.sub_zero _).symm

/-! ## Runs -/

/-- What holds of the cursors over a buffer that a sequence of calls leaves behind. -/
structure AllConfined (buffer : ByteArray) (pool : List Cursor) : Prop where
  buffers : ∀ cursor ∈ pool, cursor.buffer = buffer
  bounds : ∀ words ∈ pool.map Cursor.words,
    words.start ≤ words.position ∧ words.position ≤ words.stop ∧ words.stop ≤ buffer.size
  /-- Any of them, replaced by cursors over copies of their windows, answer all calls alike. -/
  copies : ∀ chosen, chosen ⊆ pool → ∃ copies,
    List.Forall₂ (fun cursor copy => (ofBytes cursor.bytes).seek cursor.offset = .ok copy)
      chosen copies ∧
    ∀ calls, ∃ events last last' last'',
      implementation.run chosen calls = some (events, last) ∧
      implementation.run copies calls = some (events, last') ∧
      WordCursor.implementation.run (copies.map Cursor.words) calls = some (events, last'')
  failed : ∀ call error next,
    implementation.step pool call = some (some (.error error), next) → next = pool
  ends : ∀ calls events last, implementation.run pool calls = some (events, last) →
    Narrows Narrower pool last
  windows : ∀ cursor ∈ pool, ∀ offset length opened, cursor.window offset length = .ok opened →
    opened.offset = 0 ∧ cursor.start ≤ opened.start ∧ opened.stop ≤ cursor.stop

theorem step_of_failed {pool next : List Cursor} {call : Call} {error : ReadError}
    (hstep : implementation.step pool call = some (some (.error error), next)) : next = pool := by
  cases call with
  | window target offset length =>
      simp only [step] at hstep
      split at hstep
      · cases hstep
      · split at hstep
        · cases hstep
        · cases hstep
          rfl
  | perform target operation =>
      simp only [step] at hstep
      split at hstep
      · cases hstep
      case h_2 cursor hcursor =>
          change some (some (operation.reader.outcome cursor).1,
            pool.set target (operation.reader.outcome cursor).2) = _ at hstep
          rw [Option.some_inj, Prod.mk.injEq, Option.some_inj] at hstep
          obtain ⟨hfailed, rfl⟩ := hstep
          obtain ⟨htarget, rfl⟩ := List.getElem?_eq_some_iff.1 hcursor
          rw [operation.confined.stays _ error hfailed, List.set_getElem_self]

theorem narrows_of_run {pool last : List Cursor} {calls : List Call} {events : List Event}
    (hrun : implementation.run pool calls = some (events, last)) :
    Narrows Narrower pool last := by
  refine narrows_run Narrower.refl (fun _ _ _ hthird hsecond => hthird.trans hsecond)
    (fun operation cursor result next hperform => ?_) hrun
  change some (operation.reader.outcome cursor) = _ at hperform
  rw [Option.some_inj] at hperform
  have hnarrower := operation.confined.narrower cursor
  rwa [hperform] at hnarrower

theorem exists_copies {buffer : ByteArray} (hsize : buffer.size < Word.limit)
    {chosen : List Cursor} (hbuffers : ∀ cursor ∈ chosen, cursor.buffer = buffer) :
    ∃ copies,
      List.Forall₂ (fun cursor copy => (ofBytes cursor.bytes).seek cursor.offset = .ok copy)
        chosen copies ∧
      ∀ calls, ∃ events last last' last'',
        implementation.run chosen calls = some (events, last) ∧
        implementation.run copies calls = some (events, last') ∧
        WordCursor.implementation.run (copies.map Cursor.words) calls = some (events, last'') := by
  have hcopies : List.Forall₂ SameWindow chosen (chosen.map copy) := by
    rw [List.forall₂_map_right_iff, List.forall₂_same]
    exact fun cursor _ => cursor.sameWindow_copy
  have hsmall : ∀ cursor ∈ chosen, cursor.copy.buffer.size < Word.limit := by
    intro cursor hcursor
    have hstop := cursor.stop_le_size
    have hlength : cursor.copy.buffer.size = cursor.stop - cursor.start := cursor.size_bytes
    rw [hbuffers cursor hcursor] at hstop
    omega
  have hwords : List.Forall₂ (fun cursor words => cursor.buffer.size < Word.limit ∧
      words = cursor.words) (chosen.map copy) ((chosen.map copy).map Cursor.words) := by
    rw [List.forall₂_map_right_iff, List.forall₂_same]
    intro copied hcopied
    obtain ⟨cursor, hcursor, rfl⟩ := List.mem_map.1 hcopied
    exact ⟨hsmall cursor hcursor, rfl⟩
  refine ⟨chosen.map copy, ?_, fun calls => ?_⟩
  · rw [List.forall₂_map_right_iff, List.forall₂_same]
    exact fun cursor _ => cursor.seek_ofBytes_bytes
  -- The copies run as the cursors do, and the machine runs as the copies do.
  · obtain ⟨events, last, last', hrun, hrun', -⟩ := simulates_sameWindow.run hcopies calls
    have hsimulates : Simulates implementation WordCursor.implementation fun cursor words =>
        cursor.buffer.size < Word.limit ∧ words = cursor.words :=
      simulates_words (fun other => other.size < Word.limit) fun _ hholds => hholds
    obtain ⟨events', last₂, last'', hrun₂, hrun'', -⟩ := hsimulates.run hwords calls
    rw [hrun'] at hrun₂
    cases hrun₂
    exact ⟨events, last, last', last'', hrun, hrun', hrun''⟩

theorem inside_of_window {cursor opened : Cursor} {offset length : Nat}
    (hopened : cursor.window offset length = .ok opened) :
    opened.offset = 0 ∧ cursor.start ≤ opened.start ∧ opened.stop ≤ cursor.stop := by
  unfold window at hopened
  split at hopened
  case isTrue hinside =>
      cases hopened
      exact ⟨Nat.sub_self _, Nat.le_add_right _ _, hinside⟩
  case isFalse => cases hopened

theorem run_confined {buffer : ByteArray} (hsize : buffer.size < Word.limit) (calls : List Call) :
    ∃ events pool,
      implementation.run [ofBytes buffer] calls = some (events, pool) ∧
      WordCursor.implementation.run [⟨buffer, 0, 0, buffer.size⟩] calls =
        some (events, pool.map Cursor.words) ∧
      AllConfined buffer pool := by
  have hsimulates : Simulates implementation WordCursor.implementation fun cursor words =>
      cursor.buffer = buffer ∧ words = cursor.words :=
    simulates_words (fun other => other = buffer) fun _ hother => hother ▸ hsize
  have hroot : List.Forall₂ (fun cursor words => cursor.buffer = buffer ∧ words = cursor.words)
      [ofBytes buffer] [(⟨buffer, 0, 0, buffer.size⟩ : WordCursor)] :=
    .cons ⟨rfl, rfl⟩ .nil
  obtain ⟨events, pool, machine, hrun, hmachine, hrelated⟩ := hsimulates.run hroot calls
  have hbuffers : ∀ cursor ∈ pool, cursor.buffer = buffer := by
    intro cursor hcursor
    obtain ⟨words, -, hbuffer, -⟩ := exists_of_mem_forall₂ hrelated.flip hcursor
    exact hbuffer
  have hwords : pool.map Cursor.words = machine := by
    rw [← List.forall₂_eq_eq_eq, List.forall₂_map_left_iff]
    exact hrelated.imp fun _ _ hpair => hpair.2.symm
  refine ⟨events, pool, hrun, hwords ▸ hmachine, ?_⟩
  exact {
    buffers := hbuffers
    bounds := fun words hmem => by
      obtain ⟨cursor, hcursor, rfl⟩ := List.mem_map.1 hmem
      exact ⟨cursor.start_le_position, cursor.position_le_stop,
        hbuffers cursor hcursor ▸ cursor.stop_le_size⟩
    copies := fun chosen hchosen => exists_copies hsize fun cursor hcursor =>
      hbuffers cursor (hchosen hcursor)
    failed := fun _ _ _ => step_of_failed
    ends := fun _ _ _ => narrows_of_run
    windows := fun _ _ _ _ _ => inside_of_window }

/-- Two windows, one inside the other, with arguments that a 64-bit sum cannot hold. -/
def farCalls : List Call :=
  [.window 0 2 3, .window 0 0xFFFFFFFFFFFFFFFF 2, .perform 1 (.seek 0xFFFFFFFFFFFFFFFF),
    .perform 1 (.skip Int64.minValue), .perform 1 (.skip Int64.maxValue),
    .perform 1 (.truncate 0xFFFFFFFFFFFFFFFE), .perform 1 (.bytes 0xFFFFFFFFFFFFFFFF),
    .perform 1 .u16, .window 1 1 2, .window 1 1 0xFFFFFFFFFFFFFFFF, .perform 2 .u8,
    .perform 1 .peek, .perform 2 .compressedUnsigned, .perform 2 .compressedSigned,
    .perform 1 (.heapIndex 0 .blob), .perform 0 .u32, .perform 0 .rest]

theorem run_confined_far :
    let buffer := [0x10, 0x11, 0x12, 0x13, 0x14, 0x15].toByteArray
    buffer.size < Word.limit ∧
      (∃ events pool,
        implementation.run [ofBytes buffer] farCalls = some (events, pool) ∧
        WordCursor.implementation.run [⟨buffer, 0, 0, buffer.size⟩] farCalls =
          some (events, pool.map Cursor.words) ∧
        AllConfined buffer pool) ∧
      ((implementation.run [ofBytes buffer] farCalls).map fun result =>
        result.1.map Event.answer) =
        some [some (.ok .done), some (.error ⟨.invalidLength, []⟩),
          some (.error ⟨.invalidSeek, []⟩), some (.error ⟨.invalidSeek, []⟩),
          some (.error ⟨.invalidSeek, []⟩), some (.error ⟨.invalidLength, []⟩),
          some (.error ⟨.invalidLength, []⟩), some (.ok (.number 0x1312)), some (.ok .done),
          some (.error ⟨.invalidLength, []⟩), some (.ok (.number 0x13)),
          some (.ok (.byte 0x14)), some (.ok (.number 0x14)),
          some (.error ⟨.invalidCompressedSigned, []⟩), some (.error ⟨.invalidLength, []⟩),
          some (.ok (.number 0x13121110)), some (.ok (.bytes [0x14, 0x15]))] :=
  ⟨by decide, run_confined (by decide) farCalls, by decide +kernel⟩

end Cursor

end PortablePdb
