import Mathlib.Data.List.Forall2

/-!
# Lists related item by item

Two lists of one length, each item of one related to the item at its place in the other.
-/

namespace PortablePdb

variable {α β : Type} {relation : α → β → Prop}

theorem exists_of_mem_forall₂ {lefts : List α} {rights : List β}
    (hrelated : List.Forall₂ relation lefts rights) {right : β} (hright : right ∈ rights) :
    ∃ left ∈ lefts, relation left right := by
  induction hrelated with
  | nil => cases hright
  | cons hhead _ ih =>
      rcases List.mem_cons.1 hright with rfl | hmem
      · exact ⟨_, List.mem_cons_self, hhead⟩
      · obtain ⟨left, hleft, hrelation⟩ := ih hmem
        exact ⟨left, List.mem_cons_of_mem _ hleft, hrelation⟩

theorem exists_forall₂_iff {lefts : List α} :
    (∃ rights, List.Forall₂ relation lefts rights) ↔
      ∀ left ∈ lefts, ∃ right, relation left right := by
  constructor
  · rintro ⟨rights, hrelated⟩ left hleft
    obtain ⟨right, -, hrelation⟩ := exists_of_mem_forall₂ hrelated.flip hleft
    exact ⟨right, hrelation⟩
  · intro hlefts
    induction lefts with
    | nil => exact ⟨[], .nil⟩
    | cons left lefts ih =>
        obtain ⟨right, hright⟩ := hlefts left List.mem_cons_self
        obtain ⟨rights, hrights⟩ := ih fun other hother =>
          hlefts other (List.mem_cons_of_mem left hother)
        exact ⟨right :: rights, .cons hright hrights⟩

theorem forall₂_map_of_mem {γ δ : Type} {result : γ → δ → Prop} {first : α → γ} {second : β → δ}
    {lefts : List α} {rights : List β} (hrelated : List.Forall₂ relation lefts rights)
    (hresult : ∀ left, ∀ right ∈ rights, relation left right → result (first left) (second right)) :
    List.Forall₂ result (lefts.map first) (rights.map second) := by
  induction hrelated with
  | nil => exact .nil
  | cons hhead _ ih =>
      exact .cons (hresult _ _ List.mem_cons_self hhead)
        (ih fun left right hright => hresult left right (List.mem_cons_of_mem _ hright))

theorem forall₂_filterMap (select : α → Option β) (items : List α) :
    List.Forall₂ (fun item value => select item = some value)
      (items.filter fun item => (select item).isSome) (items.filterMap select) := by
  induction items with
  | nil => exact .nil
  | cons item items ih =>
      cases hselect : select item with
      | none =>
          rw [List.filter_cons_of_neg (by simp [hselect]), List.filterMap_cons_none hselect]
          exact ih
      | some value =>
          rw [List.filter_cons_of_pos (by simp [hselect]), List.filterMap_cons_some hselect]
          exact .cons hselect ih

end PortablePdb
