import PortablePdb.Proofs.Bytes.ConfinedRun
import PortablePdb.Proofs.Bytes.Success

/-!
# Programs of the machine

A program of the machine is made of the operations on its cursors and of computations without a
cursor.  Either has no value where it crashes: a difference below zero, a sum or product beyond the
64 bits, an index or slice outside its array, and also a loop that takes a turn too many.

A program *follows* a reader if it answers what the reader answers and leaves the cursor where the
reader does, which takes in that it does not crash.  Sequences and loops of programs follow the
same sequences and loops of readers, so a whole program is compared with its reader one operation
at a time.  A computation without a cursor *gives* a result if it does not crash and that is it.
-/

namespace PortablePdb

namespace Word

def mul? (first second : Nat) : Option Nat :=
  if first * second < limit then some (first * second) else none

/-- The sum of signed numbers of 64 bits. -/
def addInt? (first second : Int) : Option Int :=
  if -0x8000000000000000 ≤ first + second ∧ first + second < 0x8000000000000000 then
    some (first + second)
  else none

/-- The sum of numbers of 32 bits. -/
def addNarrow? (first second : Nat) : Option Nat :=
  if first + second < 0x100000000 then some (first + second) else none

/-- The low 32 bits. -/
def narrow (number : Nat) : Nat :=
  number % 0x100000000

theorem narrow_of_lt {number : Nat} (hnumber : number < 0x100000000) : narrow number = number :=
  Nat.mod_eq_of_lt hnumber

end Word

/-- A computation of the machine without a cursor. -/
abbrev Guarded (α : Type) : Type :=
  ExceptT ReadError Option α

namespace Guarded

variable {α β : Type}

/-- Crashes without a value, where `checked` fails. -/
def certain (value? : Option α) : Guarded α :=
  ExceptT.lift value?

def checked (fault : Fault) : Option α → Guarded α
  | some value => pure value
  | none => throw ⟨fault, []⟩

def ofExcept (result : Except ReadError α) : Guarded α :=
  ExceptT.mk (some result)

/-- Runs a program over a whole buffer and forgets where it stopped. -/
def run (program : WordReader α) (buffer : ByteArray) : Guarded α :=
  ExceptT.mk ((program ⟨buffer, 0, 0, buffer.size⟩).map Prod.fst)

/-- What a computation that does not crash results in. -/
def outcome (computation : Guarded α) : Option (Except ReadError α) :=
  ExceptT.run computation

/-- The computation does not crash and has this result. -/
def Gives (computation : Guarded α) (result : Except ReadError α) : Prop :=
  computation = ExceptT.mk (some result)

theorem Gives.outcome_eq {computation : Guarded α} {result : Except ReadError α}
    (hgives : Gives computation result) : computation.outcome = some result :=
  hgives

theorem gives_pure (value : α) : Gives (pure value) (.ok value) :=
  rfl

theorem gives_ofExcept (result : Except ReadError α) : Gives (ofExcept result) result :=
  rfl

theorem gives_throw (error : ReadError) : Gives (throw error : Guarded α) (.error error) :=
  rfl

theorem Gives.bind_map {γ : Type} {first : Guarded β} {second : β → Guarded γ}
    {result : Except ReadError α} {answer : α → β} {rest : α → Except ReadError γ}
    (hfirst : Gives first (answer <$> result))
    (hsecond : ∀ value, result = .ok value → Gives (second (answer value)) (rest value)) :
    Gives (first >>= second) (result >>= rest) := by
  rw [hfirst]
  cases result with
  | error error => rfl
  | ok value => exact hsecond value rfl

theorem Gives.bind {first : Guarded α} {second : α → Guarded β} {result : Except ReadError α}
    {rest : α → Except ReadError β} (hfirst : Gives first result)
    (hsecond : ∀ value, result = .ok value → Gives (second value) (rest value)) :
    Gives (first >>= second) (result >>= rest) := by
  rw [← id_map result] at hfirst
  exact hfirst.bind_map hsecond

theorem Gives.map {computation : Guarded α} {result : Except ReadError α}
    (hgives : Gives computation result) (answer : α → β) :
    Gives (answer <$> computation) (answer <$> result) := by
  rw [hgives]
  cases result <;> rfl

theorem Gives.bind_eq {computation : Guarded α} {value : α} (hgives : Gives computation (.ok value))
    (second : α → Guarded β) : computation >>= second = second value := by
  rw [hgives]
  rfl

theorem bind_certain {value : α} (second : α → Guarded β) :
    (certain (some value) >>= second) = second value :=
  rfl

theorem bind_checked {value : α} (fault : Fault) (second : α → Guarded β) :
    (checked fault (some value) >>= second) = second value :=
  rfl

theorem Gives.mapM {Item Row : Type} {items : List Item} {rows : List Row}
    {compute : Item → Guarded α} {read : Row → Except ReadError α}
    (hitems : List.Forall₂ (fun item row => Gives (compute item) (read row)) items rows) :
    Gives (items.mapM compute) (rows.mapM read) := by
  induction hitems with
  | nil => exact gives_pure []
  | cons hitem _ ih =>
      rw [List.mapM_cons, List.mapM_cons]
      exact hitem.bind fun value _ => ih.bind fun values _ => gives_pure _

end Guarded

/-- The machine crashes nowhere on the way through a list if it does so at none of its items. -/
theorem mapM_eq_some {α β : Type} {items : List α} {compute : α → Option β} {value : α → β}
    (hitems : ∀ item ∈ items, compute item = some (value item)) :
    items.mapM compute = some (items.map value) := by
  induction items with
  | nil => rfl
  | cons item items ih =>
      obtain ⟨hitem, hitems⟩ := List.forall_mem_cons.1 hitems
      rw [List.mapM_cons, hitem, ih hitems]
      rfl

namespace WordReader

variable {α β : Type}

/-- Reports every failure of a program as the cause of `fault`. -/
def under (fault : Fault) (program : WordReader α) : WordReader α := fun cursor =>
  match program cursor with
  | some (.ok value, next) => some (.ok value, next)
  | some (.error error, next) => some (.error (error.under fault), next)
  | none => none

/-- A computation that leaves the cursor alone. -/
def lift (computation : Guarded α) : WordReader α := fun cursor =>
  computation.outcome.map fun result => (result, cursor)

def ofExcept (result : Except ReadError α) : WordReader α :=
  lift (Guarded.ofExcept result)

def remaining : WordReader Nat := do
  let cursor ← look
  certain (Word.sub? cursor.stop cursor.position)

/-- Repeats a step, counting down. -/
def repeated (step : α → WordReader α) : (count : Nat) → (state : α) → WordReader α
  | 0, state => pure state
  | count + 1, state => do
      let next ← step state
      repeated step count next

/-- Repeats a step while a byte is left.  There is no value if that takes more turns than these. -/
def whileNextIn (step : α → WordReader α) : (turns : Nat) → (state : α) → WordReader α
  | 0, state, cursor =>
      if cursor.position < cursor.stop then none else some (.ok state, cursor)
  | turns + 1, state, cursor =>
      if cursor.position < cursor.stop then (step state >>= whileNextIn step turns) cursor
      else some (.ok state, cursor)

/-- Repeats a step while a byte is left.  A loop that takes more turns than there are bytes has
taken one that read nothing, and might take such turns for ever. -/
def whileNext (step : α → WordReader α) (state : α) : WordReader α := fun cursor =>
  whileNextIn step (cursor.stop - cursor.position) state cursor

/-! ## Following a reader -/

end WordReader

/-- A value that the reader may answer with. -/
def Reader.Yields {α : Type} (reader : Reader α) (value : α) : Prop :=
  ∃ cursor next, reader cursor = .ok value next

/-- What is left of the window is no more than it was, and of the same buffer. -/
structure Cursor.Behind (next cursor : Cursor) : Prop where
  buffer : next.buffer = cursor.buffer
  remaining_le : next.remaining ≤ cursor.remaining

theorem Reader.outcome_of_ok {α : Type} {reader : Reader α} {cursor next : Cursor} {value : α}
    (hread : reader cursor = .ok value next) : reader.outcome cursor = (.ok value, next) := by
  rw [outcome, hread]

theorem Reader.outcome_of_error {α : Type} {reader : Reader α} {cursor next : Cursor}
    {error : ReadError} (hread : reader cursor = .error error next) :
    reader.outcome cursor = (.error error, next) := by
  rw [outcome, hread]

theorem Reader.outcome_bind {α β : Type} (first : Reader α) (second : α → Reader β)
    (cursor : Cursor) :
    (first >>= second).outcome cursor =
      match first cursor with
      | .ok value next => (second value).outcome next
      | .error error next => (.error error, next) := by
  change (match EStateM.bind first second cursor with
    | .ok value next => _ | .error error next => _) = _
  unfold EStateM.bind
  cases first cursor <;> rfl

theorem Reader.run_map {α β : Type} (answer : α → β) (reader : Reader α) (cursor : Cursor) :
    (answer <$> reader).run cursor = answer <$> reader.run cursor := by
  change (match EStateM.map answer reader cursor with | .ok result _ => _ | .error error _ => _) = _
  rw [run, EStateM.run]
  unfold EStateM.map
  cases reader cursor <;> rfl

namespace WordReader

variable {α β : Type}

/-- The program does not crash and does what the reader does. -/
structure Follows (program : WordReader α) (reader : Reader α) : Prop where
  implements : Implements program reader
  behind : ∀ cursor, (reader.outcome cursor).2.Behind cursor

theorem Follows.of_takes {program : WordReader α} {reader : Reader α} {front : Reader.Front α}
    (himplements : Implements program reader) (htakes : reader.Takes front) :
    Follows program reader where
  implements := himplements
  behind cursor := by
    rcases htakes cursor with ⟨value, count, hcount, -, hread⟩ | ⟨error, -, hread⟩
    · rw [hread]
      refine ⟨rfl, ?_⟩
      simp only [Cursor.advance, Cursor.remaining]
      omega
    · rw [hread]
      exact ⟨rfl, Nat.le_refl _⟩

theorem follows_u8 : Follows u8 Reader.u8 :=
  .of_takes implements_u8 (Reader.littleEndian_takes 1)

theorem follows_littleEndian (width : Nat) :
    Follows (littleEndian width) (Reader.littleEndian width) :=
  .of_takes (implements_littleEndian width) (Reader.littleEndian_takes width)

theorem follows_bytes (count : Nat) : Follows (bytes count) (Reader.bytes count) :=
  .of_takes (implements_bytes count) (Reader.bytes_takes count)

theorem follows_array (width : Nat) : Follows (array width) (Reader.bytes width) :=
  .of_takes (implements_array width) (Reader.bytes_takes width)

theorem follows_compressedUnsigned : Follows compressedUnsigned Reader.compressedUnsigned :=
  .of_takes implements_compressedUnsigned (Reader.selfDelimited_takes _ _)

theorem follows_compressedSigned : Follows compressedSigned Reader.compressedSigned :=
  .of_takes implements_compressedSigned (Reader.selfDelimited_takes _ _)

theorem follows_pure (value : α) : Follows (pure value) (pure value) where
  implements _ _ := rfl
  behind _ := ⟨rfl, Nat.le_refl _⟩

theorem follows_lift {computation : Guarded α} {result : Except ReadError α}
    (hgives : computation.Gives result) : Follows (lift computation) (Reader.ofExcept result) where
  implements cursor _ := by
    rw [hgives, Reader.outcome]
    cases result <;> rfl
  behind cursor := by
    rw [Reader.outcome]
    cases result <;> exact ⟨rfl, Nat.le_refl _⟩

theorem follows_ofExcept (result : Except ReadError α) :
    Follows (ofExcept result) (Reader.ofExcept result) :=
  follows_lift (Guarded.gives_ofExcept result)

/-- A check of the program that the reader does without, because it cannot fail. -/
theorem follows_certain_bind {value : α} {program : α → WordReader β} {reader : Reader β}
    (hfollows : Follows (program value) reader) :
    Follows (certain (some value) >>= program) reader :=
  hfollows

theorem Follows.bind_map {γ : Type} {first : WordReader β} {reader : Reader α} {answer : α → β}
    {second : β → WordReader γ} {rest : α → Reader γ} (hfirst : Follows first (answer <$> reader))
    (hsecond : ∀ value, reader.Yields value → Follows (second (answer value)) (rest value)) :
    Follows (first >>= second) (reader >>= rest) where
  implements cursor hsize := by
    have hbehind := hfirst.behind cursor
    rw [Reader.outcome_map] at hbehind
    rw [bind_apply, hfirst.implements cursor hsize, Reader.outcome_map, Reader.outcome_bind]
    cases hread : reader cursor with
    | ok value next =>
        rw [Reader.outcome_of_ok hread] at hbehind ⊢
        exact (hsecond value ⟨cursor, next, hread⟩).implements next (hbehind.buffer ▸ hsize)
    | error error next =>
        rw [Reader.outcome_of_error hread]
        rfl
  behind cursor := by
    have hbehind := hfirst.behind cursor
    rw [Reader.outcome_map] at hbehind
    rw [Reader.outcome_bind]
    cases hread : reader cursor with
    | ok value next =>
        rw [Reader.outcome_of_ok hread] at hbehind
        have hrest := (hsecond value ⟨cursor, next, hread⟩).behind next
        exact ⟨hrest.buffer.trans hbehind.buffer,
          Nat.le_trans hrest.remaining_le hbehind.remaining_le⟩
    | error error next =>
        rw [Reader.outcome_of_error hread] at hbehind
        exact hbehind

theorem Follows.bind {first : WordReader α} {reader : Reader α} {second : α → WordReader β}
    {rest : α → Reader β} (hfirst : Follows first reader)
    (hsecond : ∀ value, reader.Yields value → Follows (second value) (rest value)) :
    Follows (first >>= second) (reader >>= rest) := by
  rw [← id_map reader] at hfirst
  exact hfirst.bind_map hsecond

theorem follows_failIf (condition : Prop) [Decidable condition] (fault : Fault)
    {program : PUnit → WordReader α} {reader : PUnit → Reader α}
    (hfollows : ¬condition → Follows (program ⟨⟩) (reader ⟨⟩)) :
    Follows (if condition then fail fault >>= program else program ⟨⟩)
      (if condition then Reader.fail fault >>= reader else reader ⟨⟩) := by
  by_cases hcondition : condition
  · rw [if_pos hcondition, if_pos hcondition]
    exact ⟨fun _ _ => rfl, fun _ => ⟨rfl, Nat.le_refl _⟩⟩
  · rw [if_neg hcondition, if_neg hcondition]
    exact hfollows hcondition

theorem Follows.under {program : WordReader α} {reader : Reader α}
    (hfollows : Follows program reader) (fault : Fault) :
    Follows (program.under fault) (reader.under fault) where
  implements cursor hsize := by
    rw [WordReader.under, hfollows.implements cursor hsize, Reader.outcome, Reader.outcome,
      Reader.under]
    cases reader cursor <;> rfl
  behind cursor := by
    have hbehind := hfollows.behind cursor
    rw [Reader.outcome, Reader.under]
    rw [Reader.outcome] at hbehind
    cases hread : reader cursor <;> rw [hread] at hbehind <;> exact hbehind

theorem Follows.map {program : WordReader α} {reader : Reader α}
    (hfollows : Follows program reader) (answer : α → β) :
    Follows (answer <$> program) (answer <$> reader) where
  implements := hfollows.implements.map answer
  behind cursor := by
    rw [Reader.outcome_map]
    exact hfollows.behind cursor

/-- A loop that a counter ends.  Its state shows what has been found so far. -/
theorem Follows.repeated {step : β → WordReader β} {reader : Reader α} {view : Array α → β}
    (hstep : ∀ found,
      Follows (step (view found)) ((fun value => view (found.push value)) <$> reader))
    (count : Nat) (found : Array α) :
    Follows (repeated step count (view found)) (view <$> reader.replicate count found) := by
  induction count generalizing found with
  | zero => exact (follows_pure found).map view
  | succ count ih =>
      rw [Reader.replicate, map_bind]
      exact (hstep found).bind_map fun value _ => ih (found.push value)

/-- The program follows the reader, and what is left of the window after a success is less. -/
structure Advances (program : WordReader α) (reader : Reader α) : Prop
    extends Follows program reader where
  remaining_lt : ∀ {cursor next : Cursor} {value : α}, reader cursor = .ok value next →
    next.remaining < cursor.remaining

theorem pos_of_decodeBits {bytes : List UInt8} {bits width : Nat}
    (hbits : Bytes.Compressed.decodeBits bytes = some (bits, width)) : 0 < width := by
  unfold Bytes.Compressed.decodeBits at hbits
  grind

theorem advances_compressedUnsigned :
    Advances compressedUnsigned Reader.compressedUnsigned where
  toFollows := follows_compressedUnsigned
  remaining_lt {cursor next value} hread := by
    unfold Reader.compressedUnsigned Reader.selfDelimited at hread
    split at hread
    case h_1 found width hdecode =>
        split at hread
        case isTrue hwidth =>
            have hpos := pos_of_decodeBits hdecode
            cases hread
            simp only [Cursor.remaining, Cursor.advance] at hwidth ⊢
            omega
        case isFalse => cases hread
    case h_2 => cases hread

theorem Advances.under {program : WordReader α} {reader : Reader α}
    (hadvances : Advances program reader) (fault : Fault) :
    Advances (program.under fault) (reader.under fault) where
  toFollows := hadvances.toFollows.under fault
  remaining_lt hread := hadvances.remaining_lt (Reader.under_eq_ok hread)

theorem Advances.bind {first : WordReader α} {reader : Reader α} {second : α → WordReader β}
    {rest : α → Reader β} (hfirst : Advances first reader)
    (hsecond : ∀ value, reader.Yields value → Follows (second value) (rest value)) :
    Advances (first >>= second) (reader >>= rest) where
  toFollows := hfirst.toFollows.bind hsecond
  remaining_lt {cursor next value} hread := by
    obtain ⟨found, middle, hfound, hrest⟩ := Reader.bind_eq_ok hread
    have hbehind := (hsecond found ⟨cursor, middle, hfound⟩).behind middle
    rw [Reader.outcome_of_ok hrest] at hbehind
    exact Nat.lt_of_le_of_lt hbehind.remaining_le (hfirst.remaining_lt hfound)

theorem outcome_untilEnd {program : α → WordReader α} {step : α → Reader α} {state : α}
    (hstep : Advances (program state) (step state)) (cursor : Cursor) :
    (Reader.untilEnd step state).outcome cursor =
      if cursor.position < cursor.stop then
        match step state cursor with
        | .ok value next => (Reader.untilEnd step value).outcome next
        | .error error next => (.error error, next)
      else (.ok state, cursor) := by
  have hend : cursor.atEnd = true ↔ ¬cursor.position < cursor.stop := by
    rw [cursor.atEnd_iff, cursor.unread_eq_nil_iff]
  rw [Reader.outcome, Reader.untilEnd]
  by_cases hnext : cursor.position < cursor.stop
  · rw [if_neg (mt hend.1 (not_not_intro hnext)), if_pos hnext]
    cases hread : step state cursor with
    | ok value next =>
        simp only [if_pos (hstep.remaining_lt hread)]
        rfl
    | error error next => rfl
  · rw [if_pos (hend.2 hnext), if_neg hnext]

section Loop

variable {program : α → WordReader α} {step : α → Reader α} {good : α → Prop} {state : α}

theorem whileNextIn_eq (hstep : ∀ state, good state → Advances (program state) (step state))
    (hgood : ∀ state value, good state → (step state).Yields value → good value)
    (hstate : good state) {turns : Nat} {cursor : Cursor} (hturns : cursor.remaining ≤ turns)
    (hsize : cursor.buffer.size < Word.limit) :
    whileNextIn program turns state cursor.words =
      some (((Reader.untilEnd step state).outcome cursor).1,
        ((Reader.untilEnd step state).outcome cursor).2.words) := by
  induction turns generalizing state cursor with
  | zero =>
      have hend : ¬cursor.position < cursor.stop := by
        simp only [Cursor.remaining] at hturns
        omega
      rw [outcome_untilEnd (hstep state hstate), if_neg hend]
      exact if_neg hend
  | succ turns ih =>
      rw [whileNextIn, outcome_untilEnd (hstep state hstate)]
      change (if cursor.position < cursor.stop then _ else _) = _
      by_cases hnext : cursor.position < cursor.stop
      · have hbehind := (hstep state hstate).behind cursor
        rw [if_pos hnext, if_pos hnext, bind_apply, (hstep state hstate).implements cursor hsize]
        cases hread : step state cursor with
        | ok value next =>
            rw [Reader.outcome_of_ok hread] at hbehind ⊢
            -- The step has read something, so one turn less is enough for what is left.
            have hless := (hstep state hstate).remaining_lt hread
            exact ih (hgood state value hstate ⟨cursor, next, hread⟩)
              (Nat.le_of_lt_succ (Nat.lt_of_lt_of_le hless hturns)) (hbehind.buffer ▸ hsize)
        | error error next => rw [Reader.outcome_of_error hread]
      · rw [if_neg hnext, if_neg hnext]

theorem behind_untilEnd (hstep : ∀ state, good state → Advances (program state) (step state))
    (hgood : ∀ state value, good state → (step state).Yields value → good value)
    (hstate : good state) (cursor : Cursor) :
    ((Reader.untilEnd step state).outcome cursor).2.Behind cursor := by
  induction hleft : cursor.remaining using Nat.strongRecOn generalizing state cursor with
  | ind left ih =>
      subst hleft
      rw [outcome_untilEnd (hstep state hstate)]
      by_cases hnext : cursor.position < cursor.stop
      · have hbehind := (hstep state hstate).behind cursor
        rw [if_pos hnext]
        cases hread : step state cursor with
        | ok value next =>
            rw [Reader.outcome_of_ok hread] at hbehind
            have hrest := ih next.remaining ((hstep state hstate).remaining_lt hread)
              (hgood state value hstate ⟨cursor, next, hread⟩) next rfl
            exact ⟨hrest.buffer.trans hbehind.buffer,
              Nat.le_trans hrest.remaining_le hbehind.remaining_le⟩
        | error error next =>
            rw [Reader.outcome_of_error hread] at hbehind
            exact hbehind
      · rw [if_neg hnext]
        exact ⟨rfl, Nat.le_refl _⟩

/-- A loop that ends because each of its steps reads something.  The steps may rely on what every
state of the loop has. -/
theorem follows_whileNext (hstep : ∀ state, good state → Advances (program state) (step state))
    (hgood : ∀ state value, good state → (step state).Yields value → good value)
    (hstate : good state) : Follows (whileNext program state) (Reader.untilEnd step state) where
  implements _ hsize := whileNextIn_eq hstep hgood hstate (Nat.le_refl _) hsize
  behind := behind_untilEnd hstep hgood hstate

end Loop

/-- A program that follows a reader gives what the reader reads from a whole buffer. -/
theorem Follows.run {program : WordReader α} {reader : Reader α}
    (hfollows : Follows program reader) {buffer : ByteArray} (hsize : buffer.size < Word.limit) :
    (Guarded.run program buffer).Gives (reader.run (Cursor.ofBytes buffer)) := by
  have hwords := hfollows.implements (Cursor.ofBytes buffer) hsize
  change program ⟨buffer, 0, 0, buffer.size⟩ = _ at hwords
  rw [Guarded.Gives, Guarded.run, hwords, Reader.run, Reader.outcome, EStateM.run]
  cases reader (Cursor.ofBytes buffer) <;> rfl

end WordReader

end PortablePdb
