import PortablePdb.Proofs.Bytes.Reading

/-!
# What a reader's success says

A reader that succeeds went through each of its parts, and each part succeeded.  Nothing is assumed
of the bytes, so this is what can be said of arbitrary input: the values of compressed integers
stay in their range, and a repetition that ends well is a chain of successful steps.
-/

namespace PortablePdb.Reader

variable {α β : Type}

theorem bind_eq_ok {first : Reader α} {second : α → Reader β} {cursor next : Cursor} {result : β}
    (hresult : (first >>= second) cursor = .ok result next) :
    ∃ value middle, first cursor = .ok value middle ∧ second value middle = .ok result next := by
  change EStateM.bind first second cursor = _ at hresult
  unfold EStateM.bind at hresult
  cases hfirst : first cursor with
  | ok value middle =>
      rw [hfirst] at hresult
      exact ⟨value, middle, rfl, hresult⟩
  | error error middle =>
      rw [hfirst] at hresult
      cases hresult

theorem pure_eq_ok {value result : α} {cursor next : Cursor}
    (hresult : (pure value : Reader α) cursor = .ok result next) :
    value = result ∧ cursor = next := by
  cases hresult
  exact ⟨rfl, rfl⟩

theorem fail_ne_ok {fault : Fault} {cursor next : Cursor} {result : α} :
    (fail fault : Reader α) cursor ≠ .ok result next := by
  intro hresult
  cases hresult

theorem run_eq_ok {reader : Reader α} {cursor : Cursor} {result : α}
    (hresult : reader.run cursor = .ok result) : ∃ next, reader cursor = .ok result next := by
  unfold run EStateM.run at hresult
  cases hread : reader cursor with
  | ok value next =>
      rw [hread] at hresult
      cases hresult
      exact ⟨next, rfl⟩
  | error error next =>
      rw [hread] at hresult
      cases hresult

theorem ofExcept_eq_ok {found : Except ReadError α} {cursor next : Cursor} {result : α}
    (hresult : ofExcept found cursor = .ok result next) : found = .ok result ∧ cursor = next := by
  cases found with
  | error error => cases hresult
  | ok value =>
      cases hresult
      exact ⟨rfl, rfl⟩

theorem under_eq_ok {fault : Fault} {reader : Reader α} {cursor next : Cursor} {result : α}
    (hresult : reader.under fault cursor = .ok result next) : reader cursor = .ok result next := by
  unfold Reader.under at hresult
  cases hread : reader cursor with
  | error error after =>
      rw [hread] at hresult
      cases hresult
  | ok value after =>
      rw [hread] at hresult
      cases hresult
      rfl

theorem selfDelimited_eq_ok {decode : List UInt8 → Option (α × Nat)} {fault : Fault}
    {cursor next : Cursor} {value : α}
    (hresult : selfDelimited decode fault cursor = .ok value next) :
    ∃ width, decode (cursor.unread.take 4) = some (value, width) ∧
      cursor.unread = cursor.unread.take width ++ next.unread := by
  unfold selfDelimited at hresult
  rw [Cursor.ahead_eq_take_unread] at hresult
  split at hresult
  case h_1 found width hdecode =>
      split at hresult
      case isTrue hwidth =>
          cases hresult
          refine ⟨width, hdecode, ?_⟩
          rw [Cursor.unread_advance, List.take_append_drop]
      case isFalse => cases hresult
  case h_2 => cases hresult

theorem compressedUnsigned_lt {cursor next : Cursor} {value : Nat}
    (hresult : compressedUnsigned cursor = .ok value next) : value < 0x20000000 := by
  obtain ⟨width, hdecode, -⟩ := selfDelimited_eq_ok hresult
  exact Bytes.Compressed.lt_of_decodeUnsigned hdecode

theorem compressedSigned_range {cursor next : Cursor} {value : Int}
    (hresult : compressedSigned cursor = .ok value next) :
    -0x10000000 ≤ value ∧ value < 0x10000000 := by
  obtain ⟨width, hdecode, -⟩ := selfDelimited_eq_ok hresult
  exact Bytes.Compressed.range_of_decodeSigned hdecode

/-- What relates every state to itself, and a state to whatever its next state relates to, relates
the first state of a repetition to the last. -/
theorem untilEnd_eq_ok {step : α → Reader α} (relation : α → α → Prop)
    (hself : ∀ state, relation state state)
    (hstep : ∀ {state middle last : α} {cursor next : Cursor},
      step state cursor = .ok middle next → relation middle last → relation state last)
    {state last : α} {cursor next : Cursor}
    (hresult : untilEnd step state cursor = .ok last next) : relation state last := by
  rw [untilEnd] at hresult
  split at hresult
  case isTrue =>
      cases hresult
      exact hself state
  case isFalse =>
      cases hread : step state cursor with
      | error error after =>
          rw [hread] at hresult
          cases hresult
      | ok middle after =>
          rw [hread] at hresult
          by_cases hprogress : after.remaining < cursor.remaining
          · simp only [if_pos hprogress] at hresult
            exact hstep hread (untilEnd_eq_ok relation hself hstep hresult)
          · simp only [if_neg hprogress] at hresult
            cases hresult
            exact hstep hread (hself last)
  termination_by cursor.remaining

end PortablePdb.Reader
