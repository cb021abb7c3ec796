import PortablePdb.Proofs.Bytes.Words

/-!
# The machine does what the cursor does

No operation on a cursor leaves the 64 bits or the buffer in the machine, and each answers there
what the cursor's reader answers: `Operation.implements_words`.  Compressed integers are the case
with work to do, because the machine takes them apart with masks and the reader does not.
-/

namespace PortablePdb

def Cursor.words (cursor : Cursor) : WordCursor where
  buffer := cursor.buffer
  start := cursor.start
  position := cursor.position
  stop := cursor.stop

theorem Word.add?_of_lt {first second : Nat} (hsum : first + second < limit) :
    add? first second = some (first + second) :=
  if_pos hsum

theorem Word.sub?_of_le {first second : Nat} (hle : second ≤ first) :
    sub? first second = some (first - second) :=
  if_pos hle

namespace WordReader

variable {α β : Type}

/-- The machine does what the reader does, on cursors over buffers that 64 bits can measure. -/
def Implements (words : WordReader α) (reader : Reader α) : Prop :=
  ∀ cursor : Cursor, cursor.buffer.size < Word.limit →
    words cursor.words = some ((reader.outcome cursor).1, (reader.outcome cursor).2.words)

@[simp] theorem pure_apply (value : α) (cursor : WordCursor) :
    (pure value : WordReader α) cursor = some (.ok value, cursor) :=
  rfl

@[simp] theorem look_apply (cursor : WordCursor) : look cursor = some (.ok cursor, cursor) :=
  rfl

@[simp] theorem become_apply (next cursor : WordCursor) :
    become next cursor = some (.ok (), next) :=
  rfl

@[simp] theorem certain_some_apply (value : α) (cursor : WordCursor) :
    certain (some value) cursor = some (.ok value, cursor) :=
  rfl

@[simp] theorem checked_some (fault : Fault) (value : α) :
    checked fault (some value) = pure value :=
  rfl

theorem bind_apply (first : WordReader α) (second : α → WordReader β) (cursor : WordCursor) :
    (first >>= second) cursor =
      match first cursor with
      | some (.ok value, next) => second value next
      | some (.error error, next) => some (.error error, next)
      | none => none :=
  rfl

theorem Implements.map {words : WordReader α} {reader : Reader α}
    (himplements : Implements words reader) (answer : α → β) :
    Implements (answer <$> words) (answer <$> reader) := by
  intro cursor hsize
  have hwords := himplements cursor hsize
  change (words >>= fun value => pure (answer value)) cursor.words = _
  rw [bind_apply, hwords, Reader.outcome_map]
  cases (reader.outcome cursor).1 <;> rfl

/-! ## Moves -/

theorem implements_truncate (length : Nat) :
    Implements (truncate length) (Reader.move fun cursor => cursor.truncate length) := by
  intro cursor hsize
  have hstop := cursor.stop_le_size
  rw [Reader.outcome_move, Cursor.truncate]
  simp only [truncate, bind_apply, look_apply, Cursor.words]
  by_cases hinside : cursor.position ≤ cursor.start + length ∧ cursor.start + length ≤ cursor.stop
  · rw [dif_pos hinside, Word.add?_of_lt (by omega)]
    simp only [checked_some, pure_apply]
    rw [if_neg (by omega)]
    rfl
  · rw [dif_neg hinside]
    by_cases hfits : cursor.start + length < Word.limit
    · rw [Word.add?_of_lt hfits]
      simp only [checked_some, pure_apply]
      rw [if_pos (by omega)]
      rfl
    · rw [Word.add?, if_neg hfits]
      rfl

theorem implements_seek (offset : Nat) :
    Implements (seek offset) (Reader.move fun cursor => cursor.seek offset) := by
  intro cursor hsize
  have hstop := cursor.stop_le_size
  rw [Reader.outcome_move, Cursor.seek]
  simp only [seek, bind_apply, look_apply, Cursor.words]
  by_cases hinside : cursor.start + offset ≤ cursor.stop
  · rw [dif_pos hinside, Word.add?_of_lt (by omega)]
    simp only [checked_some, pure_apply]
    rw [if_neg (by omega)]
    rfl
  · rw [dif_neg hinside]
    by_cases hfits : cursor.start + offset < Word.limit
    · rw [Word.add?_of_lt hfits]
      simp only [checked_some, pure_apply]
      rw [if_pos (by omega)]
      rfl
    · rw [Word.add?, if_neg hfits]
      rfl

theorem implements_skip (distance : Int) :
    Implements (skip distance) (Reader.move fun cursor => cursor.skip distance) := by
  intro cursor hsize
  have hstop := cursor.stop_le_size
  rw [Reader.outcome_move, Cursor.skip]
  simp only [skip, bind_apply, look_apply, Cursor.words]
  by_cases hinside : (cursor.start : Int) ≤ cursor.position + distance ∧
      (cursor.position : Int) + distance ≤ cursor.stop
  · rw [dif_pos hinside, Word.addSigned?, if_pos (by omega)]
    simp only [checked_some, pure_apply]
    rw [if_neg (by omega)]
    rfl
  · rw [dif_neg hinside]
    by_cases hfits : 0 ≤ (cursor.position : Int) + distance ∧
        (cursor.position : Int) + distance < Word.limit
    · rw [Word.addSigned?, if_pos hfits]
      simp only [checked_some, pure_apply]
      rw [if_pos (by omega)]
      rfl
    · rw [Word.addSigned?, if_neg hfits]
      rfl

/-! ## Bytes and plain numbers -/

theorem advance_apply {cursor : Cursor} (hsize : cursor.buffer.size < Word.limit) {count : Nat}
    (hcount : count ≤ cursor.remaining) :
    advance count cursor.words = some (.ok (), (cursor.advance count hcount).words) := by
  have hstop := cursor.stop_le_size
  have hposition := cursor.position_le_stop
  rw [Cursor.remaining] at hcount
  simp only [advance, bind_apply, look_apply, Cursor.words]
  rw [Word.add?_of_lt (by omega)]
  rfl

theorem implements_peek : Implements peek Reader.peek := by
  intro cursor hsize
  have hstop := cursor.stop_le_size
  simp only [peek, bind_apply, look_apply, Cursor.words, Reader.outcome, Reader.peek]
  by_cases hnext : cursor.position < cursor.stop
  · rw [if_pos hnext, dif_pos hnext, getElem?_pos cursor.buffer cursor.position (by omega)]
    rfl
  · rw [if_neg hnext, dif_neg hnext]
    rfl

theorem outcome_bytes (count : Nat) (cursor : Cursor) :
    (Reader.bytes count).outcome cursor =
      if h : count ≤ cursor.remaining then (.ok (cursor.ahead count), cursor.advance count h)
      else (.error ⟨.invalidLength, []⟩, cursor) := by
  unfold Reader.outcome Reader.bytes
  by_cases h : count ≤ cursor.remaining
  · rw [dif_pos h, dif_pos h]
  · rw [dif_neg h, dif_neg h]

theorem implements_bytes (count : Nat) : Implements (bytes count) (Reader.bytes count) := by
  intro cursor hsize
  have hstop := cursor.stop_le_size
  have hposition := cursor.position_le_stop
  have hremaining : Word.sub? cursor.words.stop cursor.words.position = some cursor.remaining :=
    Word.sub?_of_le hposition
  rw [outcome_bytes]
  simp only [bytes, bind_apply, look_apply, hremaining, certain_some_apply]
  by_cases hcount : count ≤ cursor.remaining
  · have hbound : cursor.position + count ≤ cursor.stop := by
      rw [Cursor.remaining] at hcount
      omega
    have hsum : Word.add? cursor.words.position count = some (cursor.position + count) :=
      Word.add?_of_lt (Nat.lt_of_le_of_lt (Nat.le_trans hbound hstop) hsize)
    have hslice : slice? cursor.words.buffer cursor.words.position (cursor.position + count) =
        some (cursor.ahead count) := by
      rw [Cursor.ahead, Nat.min_eq_left hbound]
      exact if_pos ⟨Nat.le_add_right _ _, Nat.le_trans hbound hstop⟩
    rw [dif_pos hcount, if_neg (Nat.not_lt.2 hcount)]
    simp only [bind_apply, hsum, hslice, certain_some_apply, advance_apply hsize hcount, pure_apply]
  · rw [dif_neg hcount, if_pos (Nat.lt_of_not_le hcount)]
    rfl

theorem implements_rest : Implements rest Reader.rest := by
  intro cursor hsize
  have hstop := cursor.stop_le_size
  have hposition := cursor.position_le_stop
  have hend : cursor.position + cursor.remaining = cursor.stop := by
    rw [Cursor.remaining]
    omega
  have hslice : slice? cursor.words.buffer cursor.words.position cursor.words.stop =
      some (cursor.ahead cursor.remaining) := by
    rw [Cursor.ahead, hend, Nat.min_self]
    exact if_pos ⟨hposition, hstop⟩
  have hwords : (cursor.advance cursor.remaining (Nat.le_refl _)).words =
      { cursor.words with position := cursor.words.stop } := by
    simp only [Cursor.words, Cursor.advance, hend]
  simp only [rest, bind_apply, look_apply, hslice, certain_some_apply, become_apply, pure_apply,
    Reader.outcome, Reader.rest, hwords]

theorem implements_array (width : Nat) : Implements (array width) (Reader.bytes width) := by
  intro cursor hsize
  have hbytes := implements_bytes width cursor hsize
  rw [outcome_bytes] at *
  simp only [array, bind_apply, hbytes]
  by_cases hwidth : width ≤ cursor.remaining
  · have hfound : (cursor.ahead width).size = width := by
      rw [Cursor.size_ahead, Nat.min_eq_left hwidth]
    simp only [dif_pos hwidth, if_pos hfound, certain_some_apply]
  · simp only [dif_neg hwidth]

theorem implements_littleEndian (width : Nat) :
    Implements (littleEndian width) (Reader.littleEndian width) := by
  rw [Reader.littleEndian_eq_map]
  exact (implements_array width).map _

section
variable {words : WordReader α} {reader : Reader α} {front : Reader.Front α} {cursor : Cursor}

theorem Implements.apply_ok (himplements : Implements words reader)
    (htakes : Reader.Takes reader front) (hsize : cursor.buffer.size < Word.limit) {value : α}
    {count : Nat} (hfront : front cursor.unread = .ok (value, count)) :
    ∃ hcount : count ≤ cursor.remaining,
      words cursor.words = some (.ok value, (cursor.advance count hcount).words) := by
  obtain ⟨hcount, hread⟩ := htakes.outcome_ok hfront
  exact ⟨hcount, by rw [himplements cursor hsize, hread]⟩

theorem Implements.apply_error (himplements : Implements words reader)
    (htakes : Reader.Takes reader front) (hsize : cursor.buffer.size < Word.limit)
    {error : ReadError} (hfront : front cursor.unread = .error error) :
    words cursor.words = some (.error error, cursor.words) := by
  rw [himplements cursor hsize, htakes.outcome_error hfront]

end

theorem implements_u8 : Implements u8 Reader.u8 := by
  intro cursor hsize
  have htakes := Reader.littleEndian_takes 1
  cases hunread : cursor.unread with
  | nil =>
      have hpeek := implements_peek.apply_error Reader.peek_takes hsize (by rw [hunread]; rfl)
      have hfront : Reader.frontLittleEndian 1 cursor.unread = .error ⟨.invalidLength, []⟩ := by
        rw [hunread]
        rfl
      rw [Reader.u8, htakes.outcome_error hfront]
      simp only [u8, bind_apply, hpeek]
  | cons byte tail =>
      obtain ⟨_, hpeek⟩ := implements_peek.apply_ok Reader.peek_takes hsize (by rw [hunread]; rfl)
      have hfront : Reader.frontLittleEndian 1 cursor.unread = .ok (byte.toNat, 1) := by
        rw [hunread]
        simp [Reader.frontLittleEndian, Reader.frontBytes, Except.map, Bytes.ofLittleEndian]
      obtain ⟨hone, hread⟩ := htakes.outcome_ok hfront
      change peek cursor.words = some (_, cursor.words) at hpeek
      rw [Reader.u8, hread]
      simp only [u8, bind_apply, hpeek, advance_apply hsize hone, pure_apply]

/-! ## Compressed integers -/

theorem and_flag_eq_zero : ∀ n < 256,
    (UInt8.ofNat n &&& 0x80 = 0 ↔ n < 0x80) ∧
    (0x80 ≤ n → (UInt8.ofNat n &&& 0x40 = 0 ↔ n < 0xC0)) ∧
    (0xC0 ≤ n → (UInt8.ofNat n &&& 0x20 = 0 ↔ n < 0xE0)) := by
  decide +kernel

/-- The bits of a compressed integer together with their width, which the sign depends on. -/
def decodePair (bytes : List UInt8) : Option ((Nat × Nat) × Nat) :=
  (Bytes.Compressed.decodeBits bytes).map fun found => (found, found.2)

theorem relabel_of_ok {words : WordReader α} {cursor next : WordCursor} {value : α} (fault : Fault)
    (hwords : words cursor = some (.ok value, next)) :
    relabel fault words cursor = some (.ok value, next) := by
  unfold relabel
  rw [hwords]

theorem relabel_of_error {words : WordReader α} {cursor next : WordCursor} {error : ReadError}
    (fault : Fault) (hwords : words cursor = some (.error error, next)) :
    relabel fault words cursor = some (.error ⟨fault, []⟩, next) := by
  unfold relabel
  rw [hwords]

theorem bits_of_two (b0 b1 : UInt8) (hlow : 0x80 ≤ b0.toNat) (hhigh : b0.toNat < 0xC0) :
    bigEndian [b0, b1].toByteArray &&& 0x3FFF = (b0.toNat - 0x80) * 256 + b1.toNat := by
  have hb1 := b1.toNat_lt
  have hmask := Nat.and_two_pow_sub_one_eq_mod (bigEndian [b0, b1].toByteArray) 14
  simp only [Nat.reducePow, Nat.reduceSub] at hmask
  rw [hmask]
  simp [bigEndian, Bytes.ofLittleEndian]
  omega

theorem bits_of_four (b0 b1 b2 b3 : UInt8) (hlow : 0xC0 ≤ b0.toNat) (hhigh : b0.toNat < 0xE0) :
    bigEndian [b0, b1, b2, b3].toByteArray &&& 0x1FFFFFFF =
      (b0.toNat - 0xC0) * 0x1000000 + b1.toNat * 0x10000 + b2.toNat * 256 + b3.toNat := by
  have hb1 := b1.toNat_lt
  have hb2 := b2.toNat_lt
  have hb3 := b3.toNat_lt
  have hmask := Nat.and_two_pow_sub_one_eq_mod (bigEndian [b0, b1, b2, b3].toByteArray) 29
  simp only [Nat.reducePow, Nat.reduceSub] at hmask
  rw [hmask]
  simp [bigEndian, Bytes.ofLittleEndian]
  omega

section
variable {cursor : Cursor} {b0 : UInt8} {tail : List UInt8}

theorem compressedBits_of_nil (fault : Fault) (hsize : cursor.buffer.size < Word.limit)
    (hunread : cursor.unread = []) :
    compressedBits fault cursor.words = some (.error ⟨fault, []⟩, cursor.words) := by
  have hpeek := implements_peek.apply_error Reader.peek_takes hsize (by rw [hunread]; rfl)
  simp only [compressedBits, bind_apply, relabel_of_error fault hpeek]

/-- What is left to do once the first byte is known. -/
theorem compressedBits_of_cons (fault : Fault) (hsize : cursor.buffer.size < Word.limit)
    (hunread : cursor.unread = b0 :: tail) :
    compressedBits fault cursor.words =
      (if b0.toNat < 0x80 then do
        advance 1
        return (b0.toNat, 1)
      else if b0.toNat < 0xC0 then do
        let found ← relabel fault (array 2)
        return (bigEndian found &&& 0x3FFF, 2)
      else if b0.toNat < 0xE0 then do
        let found ← relabel fault (array 4)
        return (bigEndian found &&& 0x1FFFFFFF, 4)
      else fail fault : WordReader (Nat × Nat)) cursor.words := by
  obtain ⟨_, hpeek⟩ := implements_peek.apply_ok Reader.peek_takes hsize (by rw [hunread]; rfl)
  change peek cursor.words = some (_, cursor.words) at hpeek
  obtain ⟨hone, htwo, hfour⟩ := and_flag_eq_zero b0.toNat b0.toNat_lt
  rw [UInt8.ofNat_toNat] at hone htwo hfour
  rw [compressedBits, bind_apply, relabel_of_ok fault hpeek]
  dsimp only
  by_cases h80 : b0.toNat < 0x80
  · rw [if_pos (hone.2 h80), if_pos h80]
  · rw [if_neg (mt hone.1 h80), if_neg h80]
    have htwo := htwo (Nat.not_lt.1 h80)
    by_cases hC0 : b0.toNat < 0xC0
    · rw [if_pos (htwo.2 hC0), if_pos hC0]
    · rw [if_neg (mt htwo.1 hC0), if_neg hC0]
      have hfour := hfour (Nat.not_lt.1 hC0)
      by_cases hE0 : b0.toNat < 0xE0
      · rw [if_pos (hfour.2 hE0), if_pos hE0]
      · rw [if_neg (mt hfour.1 hE0), if_neg hE0]

theorem relabel_array_apply {width : Nat} (fault : Fault)
    (hsize : cursor.buffer.size < Word.limit) :
    relabel fault (array width) cursor.words =
      if h : width ≤ cursor.remaining then
        some (.ok (cursor.unread.take width).toByteArray, (cursor.advance width h).words)
      else some (.error ⟨fault, []⟩, cursor.words) := by
  have hlength := cursor.length_unread
  by_cases hwidth : width ≤ cursor.remaining
  · obtain ⟨_, harray⟩ := (implements_array width).apply_ok (Reader.bytes_takes width) hsize
      (if_pos (hlength ▸ hwidth))
    rw [dif_pos hwidth, relabel_of_ok fault harray]
  · have harray := (implements_array width).apply_error (Reader.bytes_takes width) hsize
      (if_neg (hlength ▸ hwidth))
    rw [dif_neg hwidth, relabel_of_error fault harray]

end

theorem frontNumber_decodePair (fault : Fault) (b0 : UInt8) (tail : List UInt8) :
    Reader.frontNumber decodePair fault (b0 :: tail) =
      if b0.toNat < 0x80 then .ok ((b0.toNat, 1), 1)
      else if b0.toNat < 0xC0 then
        match tail with
        | b1 :: _ => .ok (((b0.toNat - 0x80) * 256 + b1.toNat, 2), 2)
        | [] => .error ⟨fault, []⟩
      else if b0.toNat < 0xE0 then
        match tail with
        | b1 :: b2 :: b3 :: _ =>
            .ok (((b0.toNat - 0xC0) * 0x1000000 + b1.toNat * 0x10000 + b2.toNat * 256 + b3.toNat,
              4), 4)
        | _ => .error ⟨fault, []⟩
      else .error ⟨fault, []⟩ := by
  rw [Reader.frontNumber, List.take_succ_cons, decodePair, Bytes.Compressed.decodeBits.eq_def]
  dsimp only
  by_cases h80 : b0.toNat < 0x80
  · rw [if_pos h80, if_pos h80]
    simp
  · rw [if_neg h80, if_neg h80]
    by_cases hC0 : b0.toNat < 0xC0
    · rw [if_pos hC0, if_pos hC0]
      cases tail <;> simp
    · rw [if_neg hC0, if_neg hC0]
      by_cases hE0 : b0.toNat < 0xE0
      · rw [if_pos hE0, if_pos hE0]
        rcases tail with _ | ⟨b1, _ | ⟨b2, _ | ⟨b3, tail⟩⟩⟩ <;> simp
      · rw [if_neg hE0, if_neg hE0]
        rfl

section
variable {cursor : Cursor} {b0 : UInt8} {tail : List UInt8}

theorem compressedBits_of_two (fault : Fault) (hsize : cursor.buffer.size < Word.limit)
    (hunread : cursor.unread = b0 :: tail) (hlow : 0x80 ≤ b0.toNat) (hhigh : b0.toNat < 0xC0) :
    compressedBits fault cursor.words =
      some (((Reader.selfDelimited decodePair fault).outcome cursor).1,
        ((Reader.selfDelimited decodePair fault).outcome cursor).2.words) := by
  have hlength := cursor.length_unread
  have htakes := Reader.selfDelimited_takes decodePair fault
  have hfront := frontNumber_decodePair fault b0 tail
  rw [← hunread, if_neg (Nat.not_lt.2 hlow), if_pos hhigh] at hfront
  rw [compressedBits_of_cons fault hsize hunread, if_neg (Nat.not_lt.2 hlow), if_pos hhigh,
    bind_apply, relabel_array_apply fault hsize]
  rw [hunread] at hlength ⊢
  cases tail with
  | nil =>
      have hshort : ¬2 ≤ cursor.remaining := by
        rw [← hlength, List.length_singleton]
        decide
      rw [htakes.outcome_error hfront, dif_neg hshort]
  | cons b1 tail =>
      obtain ⟨hcount, hread⟩ := htakes.outcome_ok hfront
      rw [hread, dif_pos hcount, ← bits_of_two b0 b1 hlow hhigh]
      rfl

theorem compressedBits_of_four (fault : Fault) (hsize : cursor.buffer.size < Word.limit)
    (hunread : cursor.unread = b0 :: tail) (hlow : 0xC0 ≤ b0.toNat) (hhigh : b0.toNat < 0xE0) :
    compressedBits fault cursor.words =
      some (((Reader.selfDelimited decodePair fault).outcome cursor).1,
        ((Reader.selfDelimited decodePair fault).outcome cursor).2.words) := by
  have hlength := cursor.length_unread
  have htakes := Reader.selfDelimited_takes decodePair fault
  have hfront := frontNumber_decodePair fault b0 tail
  have hnotOne : ¬b0.toNat < 0x80 := by omega
  rw [← hunread, if_neg hnotOne, if_neg (Nat.not_lt.2 hlow), if_pos hhigh] at hfront
  rw [compressedBits_of_cons fault hsize hunread, if_neg hnotOne, if_neg (Nat.not_lt.2 hlow),
    if_pos hhigh, bind_apply, relabel_array_apply fault hsize]
  rw [hunread] at hlength ⊢
  split at hfront
  case h_1 b1 b2 b3 tail =>
      obtain ⟨hcount, hread⟩ := htakes.outcome_ok hfront
      rw [hread, dif_pos hcount, ← bits_of_four b0 b1 b2 b3 hlow hhigh]
      rfl
  case h_2 hother =>
      have htail : tail.length < 3 := by
        rcases tail with _ | ⟨b1, _ | ⟨b2, _ | ⟨b3, tail⟩⟩⟩
        · simp
        · simp
        · simp
        · exact absurd rfl (hother b1 b2 b3 tail)
      have hshort : ¬4 ≤ cursor.remaining := by
        rw [← hlength, List.length_cons]
        omega
      rw [htakes.outcome_error hfront, dif_neg hshort]

end

theorem implements_compressedBits (fault : Fault) :
    Implements (compressedBits fault) (Reader.selfDelimited decodePair fault) := by
  intro cursor hsize
  have htakes := Reader.selfDelimited_takes decodePair fault
  cases hunread : cursor.unread with
  | nil =>
      rw [compressedBits_of_nil fault hsize hunread,
        htakes.outcome_error (by rw [hunread]; rfl)]
  | cons b0 tail =>
      have hfront := frontNumber_decodePair fault b0 tail
      have hwords := compressedBits_of_cons fault hsize hunread
      rw [← hunread] at hfront
      -- The first byte tells the width.
      by_cases h80 : b0.toNat < 0x80
      · rw [if_pos h80] at hfront
        obtain ⟨hcount, hread⟩ := htakes.outcome_ok hfront
        rw [hwords, if_pos h80, hread, bind_apply, advance_apply hsize hcount]
        rfl
      by_cases hC0 : b0.toNat < 0xC0
      · exact compressedBits_of_two fault hsize hunread (Nat.not_lt.1 h80) hC0
      by_cases hE0 : b0.toNat < 0xE0
      · exact compressedBits_of_four fault hsize hunread (Nat.not_lt.1 hC0) hE0
      · rw [if_neg h80, if_neg hC0, if_neg hE0] at hfront
        rw [hwords, if_neg h80, if_neg hC0, if_neg hE0, htakes.outcome_error hfront]
        rfl

theorem implements_compressedUnsigned :
    Implements compressedUnsigned Reader.compressedUnsigned := by
  have hdecode : Bytes.Compressed.decodeUnsigned =
      fun bytes => (decodePair bytes).map fun found => (found.1.1, found.2) := by
    funext bytes
    rw [decodePair, Option.map_map]
    exact Option.map_id'.symm
  rw [Reader.compressedUnsigned, hdecode,
    Reader.selfDelimited_map decodePair Prod.fst .invalidCompressedUnsigned]
  exact (implements_compressedBits _).map Prod.fst

def signed (found : Nat × Nat) : Int :=
  Word.asSigned32
    (if found.1 &&& 1 = 0 then found.1 >>> 1 else (found.1 >>> 1) ||| signMask found.2)

theorem asSigned32_or_signMask {width value : Nat}
    (hvalue : value < Bytes.Compressed.signedHalf width) :
    Word.asSigned32 (value ||| signMask width) =
      value - (Bytes.Compressed.signedHalf width : Int) := by
  have hor : value ||| signMask width =
      0x100000000 - Bytes.Compressed.signedHalf width + value := by
    -- The mask is a multiple of the power of two that the value stays below.
    rw [Nat.or_comm]
    by_cases hone : width = 1
    · subst hone
      exact (Nat.two_pow_add_eq_or_of_lt (i := 6) hvalue 0x3FFFFFF).symm
    by_cases htwo : width = 2
    · subst htwo
      exact (Nat.two_pow_add_eq_or_of_lt (i := 13) hvalue 0x7FFFF).symm
    · rw [Bytes.Compressed.signedHalf, if_neg hone, if_neg htwo] at *
      rw [signMask, if_neg hone, if_neg htwo]
      exact (Nat.two_pow_add_eq_or_of_lt (i := 28) hvalue 0xF).symm
  have hhalf := Bytes.Compressed.signedHalf_le width
  rw [hor, Word.asSigned32, if_neg (by omega)]
  omega

theorem signed_eq_unrotate {bits width : Nat}
    (hbits : bits < 2 * Bytes.Compressed.signedHalf width) :
    signed (bits, width) =
      Bytes.Compressed.unrotate (Bytes.Compressed.signedHalf width) bits := by
  have hhalf := Bytes.Compressed.signedHalf_le width
  have hshift : bits >>> 1 = bits / 2 := Nat.shiftRight_eq_div_pow bits 1
  rw [signed, Bytes.Compressed.unrotate]
  dsimp only
  rw [Nat.and_one_is_mod, hshift]
  by_cases hodd : bits % 2 = 1
  · rw [if_neg (by omega), if_pos hodd]
    exact asSigned32_or_signMask (by omega)
  · rw [if_pos (by omega), if_neg hodd, Word.asSigned32, if_pos (by omega)]

theorem implements_compressedSigned : Implements compressedSigned Reader.compressedSigned := by
  have hdecode : Bytes.Compressed.decodeSigned =
      fun bytes => (decodePair bytes).map fun found => (signed found.1, found.2) := by
    funext bytes
    rw [decodePair, Option.map_map]
    refine Option.map_congr fun found hfound => ?_
    have hbits := Bytes.Compressed.bits_lt_of_decodeBits hfound
    rw [Function.comp_apply, signed_eq_unrotate hbits]
  rw [Reader.compressedSigned, hdecode,
    Reader.selfDelimited_map decodePair signed .invalidCompressedSigned]
  exact (implements_compressedBits _).map signed

theorem sizeFlag_and_eq_zero (heap : HeapKind) : ∀ n < 256,
    UInt8.ofNat n &&& sizeFlag heap = 0 ↔ n.testBit heap.sizeBit = false := by
  cases heap <;> decide +kernel

theorem implements_heapIndex (heapSizes : UInt8) (heap : HeapKind) :
    Implements (heapIndex heapSizes heap)
      (Reader.littleEndian (heapIndexWidth heapSizes.toNat heap)) := by
  have hflag := sizeFlag_and_eq_zero heap heapSizes.toNat heapSizes.toNat_lt
  rw [UInt8.ofNat_toNat] at hflag
  unfold heapIndex heapIndexWidth
  cases hbit : heapSizes.toNat.testBit heap.sizeBit with
  | true =>
      rw [if_neg (by rw [hflag, hbit]; decide), if_pos rfl]
      exact implements_littleEndian 4
  | false =>
      rw [if_pos (hflag.2 hbit), if_neg Bool.false_ne_true]
      exact implements_littleEndian 2

theorem implements_tableIndex (header : TableStreamHeader) (table : TableId) :
    Implements (tableIndex header table)
      (Reader.littleEndian (header.tableIndexWidth table)) := by
  unfold tableIndex TableStreamHeader.tableIndexWidth
  by_cases hwide : header.isPresent table ∧ 0xFFFF < header.rowCount table
  · rw [if_pos hwide, if_pos rfl]
    exact implements_littleEndian 4
  · rw [if_neg hwide, if_neg (by decide)]
    exact implements_littleEndian 2

end WordReader

theorem Operation.implements_words (operation : Operation) :
    WordReader.Implements operation.words operation.reader := by
  cases operation with
  | truncate length => exact (WordReader.implements_truncate length.toNat).map _
  | seek offset => exact (WordReader.implements_seek offset.toNat).map _
  | skip distance => exact (WordReader.implements_skip distance.toInt).map _
  | peek => exact WordReader.implements_peek.map _
  | u8 => exact WordReader.implements_u8.map _
  | u16 => exact (WordReader.implements_littleEndian 2).map _
  | u32 => exact (WordReader.implements_littleEndian 4).map _
  | u64 => exact (WordReader.implements_littleEndian 8).map _
  | bytes count => exact (WordReader.implements_bytes count.toNat).map _
  | rest => exact WordReader.implements_rest.map _
  | compressedUnsigned => exact WordReader.implements_compressedUnsigned.map _
  | compressedSigned => exact WordReader.implements_compressedSigned.map _
  | heapIndex heapSizes heap => exact (WordReader.implements_heapIndex heapSizes heap).map _
  | tableIndex header table => exact (WordReader.implements_tableIndex header table).map _

end PortablePdb
