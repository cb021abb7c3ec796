/-!
# Searching what a stable sort ordered

A sort by descending keys leaves the items of one key in their order.  The first item that a search
accepts among the sorted ones is then, among all that it accepts, one with the largest key, and of
those the first.
-/

namespace PortablePdb

variable {α β : Type}

/-- A sort by ascending keys orders the keys. -/
theorem pairwise_mergeSort_key (key : α → Nat) (items : List α) :
    (items.mergeSort fun first second => key first ≤ key second).Pairwise
      fun first second => key first ≤ key second := by
  have hpairs : (items.mergeSort fun first second => key first ≤ key second).Pairwise
      fun first second => decide (key first ≤ key second) = true :=
    List.pairwise_mergeSort (by grind) (by grind) items
  simpa using hpairs

/-- A stable sort leaves items where they are among themselves if they are in order already. -/
theorem filter_mergeSort {le : α → α → Bool} (htrans : ∀ a b c, le a b → le b c → le a c)
    (htotal : ∀ a b, (le a b || le b a) = true) {items : List α} {select : α → Bool}
    (hordered : (items.filter select).Pairwise fun first second => le first second) :
    (items.mergeSort le).filter select = items.filter select := by
  have hperm := (List.mergeSort_perm items le).filter select
  have hsublist := (List.sublist_mergeSort htrans htotal hordered
    List.filter_sublist).filter select
  rw [List.filter_filter] at hsublist
  simp only [Bool.and_self] at hsublist
  exact (hsublist.eq_of_length hperm.length_eq.symm).symm

/-- Nothing accepted has a larger key, and nothing accepted before it an equal one. -/
structure FirstLargest (key : α → Nat) (accepts : α → Bool) (before : List α) (item : α)
    (after : List α) : Prop where
  accepted : accepts item = true
  before_lt : ∀ other ∈ before, accepts other = true → key other < key item
  after_le : ∀ other ∈ after, accepts other = true → key other ≤ key item

/-- A preselection that loses nothing accepted does not change which item that is. -/
theorem FirstLargest.of_filter {key : α → Nat} {accepts preselects : α → Bool}
    {items front : List α} {item : α} {back : List α}
    (hselects : ∀ other ∈ items, accepts other = true → preselects other = true)
    (hsplit : items.filter preselects = front ++ item :: back)
    (hlargest : FirstLargest key accepts front item back) :
    ∃ before after, items = before ++ item :: after ∧
      FirstLargest key accepts before item after := by
  obtain ⟨first, second, rfl, hfirst, hsecond⟩ := List.filter_eq_append_iff.1 hsplit
  obtain ⟨skipped, after, rfl, hskipped, -, hafter⟩ := List.filter_eq_cons_iff.1 hsecond
  refine ⟨first ++ skipped, after, by rw [List.append_assoc], hlargest.accepted,
    fun other hother haccepted => ?_, fun other hother haccepted => ?_⟩
  · have hselected := hselects other (by simp only [List.mem_append] at *; grind) haccepted
    rcases List.mem_append.1 hother with hmem | hmem
    · refine hlargest.before_lt other ?_ haccepted
      rw [← hfirst]
      exact List.mem_filter.2 ⟨hmem, hselected⟩
    · exact absurd hselected (hskipped other hmem)
  · have hselected := hselects other (by simp [hother]) haccepted
    refine hlargest.after_le other ?_ haccepted
    rw [← hafter]
    exact List.mem_filter.2 ⟨hother, hselected⟩

theorem findSome?_mergeSort_eq_none_iff {le : α → α → Bool} {items : List α}
    {select : α → Option β} :
    (items.mergeSort le).findSome? select = none ↔ ∀ item ∈ items, select item = none := by
  simp only [List.findSome?_eq_none_iff, List.mem_mergeSort]

theorem findSome?_mergeSort_eq_some {key : α → Nat} {items : List α} {select : α → Option β}
    {value : β}
    (hfound : (items.mergeSort fun first second => key second ≤ key first).findSome? select =
      some value) :
    ∃ before item after, items = before ++ item :: after ∧ select item = some value ∧
      FirstLargest key (fun other => (select other).isSome) before item after := by
  have htrans (a b c : α) (hab : decide (key b ≤ key a) = true)
      (hbc : decide (key c ≤ key b) = true) : decide (key c ≤ key a) = true := by
    simp only [decide_eq_true_eq] at *
    omega
  have htotal (a b : α) : (decide (key b ≤ key a) || decide (key a ≤ key b)) = true := by
    rw [Bool.or_eq_true, decide_eq_true_eq, decide_eq_true_eq]
    omega
  have hsorted := List.pairwise_mergeSort htrans htotal items
  obtain ⟨front, item, back, hsplit, hitem, hfront⟩ := List.findSome?_eq_some_iff.1 hfound
  rw [hsplit, List.pairwise_append, List.pairwise_cons] at hsorted
  obtain ⟨-, ⟨hback, -⟩, -⟩ := hsorted
  have hlargest (other : α) (hother : other ∈ items) (haccepted : (select other).isSome = true) :
      key other ≤ key item := by
    have hmem : other ∈ items.mergeSort fun first second => decide (key second ≤ key first) :=
      List.mem_mergeSort.2 hother
    rw [hsplit, List.mem_append, List.mem_cons] at hmem
    rcases hmem with hmem | rfl | hmem
    · rw [hfront other hmem] at haccepted
      cases haccepted
    · exact Nat.le_refl _
    · exact of_decide_eq_true (hback other hmem)
  -- Of the accepted items with the largest key the sorted list starts with this one.
  let equal (other : α) : Bool := key other == key item && (select other).isSome
  have hequal : equal item = true := by simp [equal, hitem]
  have hstable : (items.mergeSort fun first second => decide (key second ≤ key first)).filter
      equal = items.filter equal := by
    refine filter_mergeSort htrans htotal ?_
    refine List.pairwise_of_forall_mem_list fun first hfirst second hsecond => ?_
    have hfirst := (List.mem_filter.1 hfirst).2
    have hsecond := (List.mem_filter.1 hsecond).2
    simp only [equal, Bool.and_eq_true, beq_iff_eq] at hfirst hsecond
    exact decide_eq_true (by omega)
  have hnone : front.filter equal = [] := by
    refine List.filter_eq_nil_iff.2 fun other hother haccepted => ?_
    simp [equal, hfront other hother] at haccepted
  rw [hsplit, List.filter_append, hnone, List.nil_append, List.filter_cons_of_pos hequal,
    eq_comm, List.filter_eq_cons_iff] at hstable
  obtain ⟨before, after, rfl, hbefore, -, -⟩ := hstable
  refine ⟨before, item, after, rfl, hitem, by simp [hitem], fun other hother haccepted => ?_,
    fun other hother => hlargest other (by simp [hother])⟩
  have hle := hlargest other (by simp [hother]) haccepted
  have hother := hbefore other hother
  simp only [equal, haccepted, Bool.and_true, beq_iff_eq] at hother
  omega

end PortablePdb
