import Mathlib.Data.List.Forall2

/-!
# Steps that can fail

Steps one after another have a result if each of them has one, and then the last step's is theirs.
-/

namespace PortablePdb.Except

variable {ε α β : Type}

theorem ok_bind (value : α) (second : α → Except ε β) :
    (Except.ok value >>= second) = second value := rfl

theorem bind_eq_ok {first : Except ε α} {second : α → Except ε β} {result : β}
    (hresult : (first >>= second) = .ok result) :
    ∃ value, first = .ok value ∧ second value = .ok result := by
  cases first with
  | error error => cases hresult
  | ok value => exact ⟨value, rfl, hresult⟩

theorem isSome_toOption (result : Except ε α) : result.toOption.isSome = result.isOk := by
  cases result <;> rfl

theorem toOption_eq_some_iff {result : Except ε α} {value : α} :
    result.toOption = some value ↔ result = .ok value := by
  cases result <;> simp [Except.toOption]

theorem isOk_iff {result : Except ε α} : result.isOk = true ↔ ∃ value, result = .ok value := by
  cases result <;> simp [Except.isOk, Except.toBool]

/-! ## Traversals -/

theorem mapM_eq_ok_iff {read : α → Except ε β} {items : List α} {values : List β} :
    items.mapM read = .ok values ↔
      List.Forall₂ (fun item value => read item = .ok value) items values := by
  induction items generalizing values with
  | nil =>
      rw [List.mapM_nil, List.forall₂_nil_left_iff]
      constructor
      · intro hnil
        cases hnil
        rfl
      · rintro rfl
        rfl
  | cons item items ih =>
      rw [List.mapM_cons]
      constructor
      · intro hresult
        obtain ⟨value, hvalue, hrest⟩ := bind_eq_ok hresult
        obtain ⟨others, hothers, hpure⟩ := bind_eq_ok hrest
        cases hpure
        exact .cons hvalue (ih.1 hothers)
      · rintro (_ | ⟨hvalue, hothers⟩)
        rw [hvalue, ih.2 hothers]
        rfl

theorem mapM_id_map_ok (values : List α) :
    (values.map Except.ok).mapM id = (.ok values : Except ε (List α)) := by
  induction values with
  | nil => rfl
  | cons value rest ih =>
      rw [List.map_cons, List.mapM_cons, ih]
      rfl

end PortablePdb.Except
