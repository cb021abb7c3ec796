import PortablePdb.Proofs.Index.Isolation

/-!
# Which methods a scope with a bad start takes down

A method is skipped if one of its scopes cannot be read.  Whether a scope can is a matter of its own
row and of the starts in the next one, so a row of scopes matters to the method that it names and to
the one that the row before it names.  Main statement: `skips_iff_of_outside`.  A start that is too
large ends the run before it no earlier than the table does, but the start zero, and any other below
the run's own start, makes that run malformed as well.
-/

namespace PortablePdb

namespace Rows

variable {Row : Type}

/-- The rows without the one with the given number. -/
def without (rows : Rows Row) (id : Nat) : Rows Row :=
  if id = 0 then rows else ⟨(rows.toArray.toList.eraseIdx (id - 1)).toArray⟩

theorem get?_without {id : Nat} (hid : id ≠ 0) (rows : Rows Row) (other : Nat) :
    (rows.without id).get? other = if other < id then rows.get? other else rows.get? (other + 1) := by
  obtain ⟨i, rfl⟩ := Nat.exists_eq_succ_of_ne_zero hid
  cases other with
  | zero => simp [get?]
  | succ j => simp [without, get?_succ, List.getElem?_eraseIdx]

theorem ne_zero_of_get? {rows : Rows Row} {id : Nat} {row : Row}
    (hrow : rows.get? id = some row) : id ≠ 0 := by
  rintro rfl
  simp [get?] at hrow

theorem mem_entries_iff {rows : Rows Row} {entry : Nat × Row} :
    entry ∈ rows.entries ↔ rows.get? entry.1 = some entry.2 := by
  obtain ⟨id, row⟩ := entry
  rw [List.mem_iff_getElem?]
  simp only [getElem?_entries_eq_get?, Option.map_eq_some_iff, Prod.mk.injEq]
  constructor
  · rintro ⟨i, found, hfound, rfl, rfl⟩
    exact hfound
  · intro hrow
    obtain ⟨i, rfl⟩ := Nat.exists_eq_succ_of_ne_zero (ne_zero_of_get? hrow)
    exact ⟨i, row, hrow, rfl, rfl⟩

end Rows

/-! ## Skipped methods -/

namespace DocumentIndex

/-- The index has left out the method with the given row number. -/
def Skips (index : DocumentIndex) (method : Nat) : Prop :=
  method ∈ index.malformedMethods.map Prod.fst

instance (index : DocumentIndex) (method : Nat) : Decidable (index.Skips method) :=
  inferInstanceAs (Decidable (method ∈ index.malformedMethods.map Prod.fst))

theorem skips_ofTables_iff {tables : Tables} {heaps : Heaps} {method : Nat} :
    (ofTables tables heaps).Skips method ↔
      ∃ row, tables.methods.get? method = some row ∧ ¬row.Good tables heaps method := by
  have hfailures : (ofTables tables heaps).malformedMethods =
      failures (tables.methods.entries.map fun entry =>
        (entry.1, methodOfRow tables heaps entry.1 entry.2 (scopesNaming tables heaps entry.1))) :=
    congrArg failures (methodResults_eq tables heaps)
  rw [Skips, hfailures, failures_map]
  simp only [List.mem_map, List.mem_filterMap]
  constructor
  · rintro ⟨failure, ⟨⟨number, row⟩, hentry, hfailure⟩, rfl⟩
    split at hfailure
    case h_1 error herror =>
        cases hfailure
        refine ⟨row, Rows.mem_entries_iff.1 hentry, fun hgood => ?_⟩
        rw [← isOk_methodOfRow_iff, herror] at hgood
        cases hgood
    case h_2 => cases hfailure
  · rintro ⟨row, hrow, hbad⟩
    rw [← isOk_methodOfRow_iff] at hbad
    cases hread : methodOfRow tables heaps method row (scopesNaming tables heaps method) with
    | ok parts =>
        rw [hread] at hbad
        exact absurd rfl hbad
    | error error =>
        exact ⟨(method, error), ⟨(method, row), Rows.mem_entries_iff.2 hrow, by simp [hread]⟩, rfl⟩

theorem good_of_skippedMethods_eq_zero {tables : Tables} {heaps : Heaps}
    (hnone : (ofTables tables heaps).skippedMethods = 0) {method : Nat} {row : MethodRow}
    (hrow : tables.methods.get? method = some row) : row.Good tables heaps method := by
  by_contra hbad
  have hskips : (ofTables tables heaps).Skips method := skips_ofTables_iff.2 ⟨row, hrow, hbad⟩
  rw [Skips, List.eq_nil_of_length_eq_zero hnone] at hskips
  cases hskips

/-- A scope that cannot be read takes its method down, if there is such a method. -/
theorem skips_of_not_readable {tables : Tables} {heaps : Heaps} {number : Nat} {scope : ScopeRow}
    (hscope : tables.scopes.get? number = some scope)
    (hbad : ¬scope.Readable tables heaps number)
    (hmethod : (tables.methods.get? scope.method).isSome) :
    (ofTables tables heaps).Skips scope.method := by
  obtain ⟨row, hrow⟩ := Option.isSome_iff_exists.1 hmethod
  exact skips_ofTables_iff.2 ⟨row, hrow, fun hgood =>
    hbad (hgood.scopes (number, scope) (Rows.mem_entries_iff.2 hscope) rfl)⟩

end DocumentIndex

/-! ## What a scope's row depends on -/

/-- The tables without one row of scopes. -/
def Tables.withoutScope (tables : Tables) (number : Nat) : Tables :=
  { tables with scopes := tables.scopes.without number }

theorem Tables.variables_withoutScope (tables : Tables) (number : Nat) :
    (tables.withoutScope number).variables = tables.variables := rfl

theorem Tables.constants_withoutScope (tables : Tables) (number : Nat) :
    (tables.withoutScope number).constants = tables.constants := rfl

namespace ScopeRow

/-- One of the two lists starts before the first row of its table, or behind the end. -/
def StartsOutside (tables : Tables) (row : ScopeRow) : Prop :=
  row.variableList = 0 ∨ tables.variables.count + 1 < row.variableList ∨
    row.constantList = 0 ∨ tables.constants.count + 1 < row.constantList

/-- A local of the scope has no name or no signature. -/
def HasUnreadableLocal (tables : Tables) (heaps : Heaps) (number : Nat) (row : ScopeRow) : Prop :=
  (∃ entry ∈ tables.variables.slice (row.variableRun tables number).start
      (row.variableRun tables number).stop, ∀ name, heaps.string entry.name ≠ .ok name) ∨
    ∃ constant ∈ tables.constants.slice (row.constantRun tables number).start
      (row.constantRun tables number).stop,
        (∀ name, heaps.string constant.name ≠ .ok name) ∨
          ∀ signature, heaps.blob constant.signature ≠ .ok signature

/-- The next row's lists start before the row's own, or the run that they leave to the row has a
local that cannot be read. -/
def SpoiledBy (tables : Tables) (heaps : Heaps) (number : Nat) (row next : ScopeRow) : Prop :=
  next.variableList < row.variableList ∨ next.constantList < row.constantList ∨
    row.HasUnreadableLocal tables heaps number

variable {tables : Tables} {heaps : Heaps} {number : Nat} {row : ScopeRow}

theorem not_readable_iff :
    ¬row.Readable tables heaps number ↔
      ¬(row.variableRun tables number).InOrder ∨ ¬(row.constantRun tables number).InOrder ∨
        row.HasUnreadableLocal tables heaps number := by
  have hreadable : row.Readable tables heaps number ↔
      (row.variableRun tables number).InOrder ∧ (row.constantRun tables number).InOrder ∧
        ¬row.HasUnreadableLocal tables heaps number := by
    unfold HasUnreadableLocal
    push Not
    constructor
    · rintro ⟨hvariables, hconstants, hnames, hconstantNames, hsignatures⟩
      exact ⟨hvariables, hconstants, hnames, fun constant hmem =>
        ⟨hconstantNames constant hmem, hsignatures constant hmem⟩⟩
    · rintro ⟨hvariables, hconstants, hnames, hboth⟩
      exact ⟨hvariables, hconstants, hnames, fun constant hmem => (hboth constant hmem).1,
        fun constant hmem => (hboth constant hmem).2⟩
  rw [hreadable, not_and_or, not_and_or, not_not]

theorem not_readable_of_startsOutside (houtside : row.StartsOutside tables) :
    ¬row.Readable tables heaps number := by
  intro hreadable
  have hvariables := hreadable.variables_inOrder
  have hconstants := hreadable.constants_inOrder
  simp only [LocalRun.InOrder, variableRun, constantRun, LocalRun.between] at hvariables hconstants
  unfold StartsOutside at houtside
  omega

/-- Of the other scopes, only the next one matters. -/
theorem readable_congr {first second : Tables} {other : Nat}
    (hvariables : first.variables = second.variables)
    (hconstants : first.constants = second.constants)
    (hnext : first.scopes.get? (number + 1) = second.scopes.get? (other + 1)) :
    row.Readable first heaps number ↔ row.Readable second heaps other := by
  have hvariableRun : row.variableRun first number = row.variableRun second other := by
    rw [variableRun, variableRun, hvariables, hnext]
  have hconstantRun : row.constantRun first number = row.constantRun second other := by
    rw [constantRun, constantRun, hconstants, hnext]
  rw [← not_iff_not, not_readable_iff, not_readable_iff, HasUnreadableLocal, HasUnreadableLocal,
    hvariableRun, hconstantRun, hvariables, hconstants]

/-- A start that is inside the table is behind the end of its run only if the next one is smaller.
-/
theorem inOrder_between_iff {rows start next : Nat} {other : Option Nat}
    (hinside : (LocalRun.between rows start other).InOrder) :
    (LocalRun.between rows start (some next)).InOrder ↔ start ≤ next := by
  simp only [LocalRun.InOrder, LocalRun.between, Option.getD_some] at *
  omega

theorem not_readable_iff_spoiledBy {first : Tables} {other : Nat} {next : ScopeRow}
    (hvariables : first.variables = tables.variables)
    (hconstants : first.constants = tables.constants)
    (hfirst : row.Readable first heaps other)
    (hnext : tables.scopes.get? (number + 1) = some next) :
    ¬row.Readable tables heaps number ↔ row.SpoiledBy tables heaps number next := by
  have hvariableOrder := hfirst.variables_inOrder
  have hconstantOrder := hfirst.constants_inOrder
  rw [variableRun, hvariables] at hvariableOrder
  rw [constantRun, hconstants] at hconstantOrder
  rw [not_readable_iff, SpoiledBy, variableRun, constantRun, hnext, Option.map_some,
    Option.map_some, inOrder_between_iff hvariableOrder, inOrder_between_iff hconstantOrder,
    Nat.not_le, Nat.not_le]

end ScopeRow

namespace DocumentIndex

variable {tables : Tables} {heaps : Heaps} {number : Nat} {bad : ScopeRow}

/-- Every other scope of a method can be read without the row, and has the same scope behind it
unless the row itself is the one behind it. -/
theorem exists_readable_withoutScope (hnumber : number ≠ 0)
    (hrest : (ofTables (tables.withoutScope number) heaps).skippedMethods = 0) {other : Nat}
    {scope : ScopeRow} (hscope : tables.scopes.get? other = some scope) (hother : other ≠ number)
    (hmethod : (tables.methods.get? scope.method).isSome) :
    ∃ place, scope.Readable (tables.withoutScope number) heaps place ∧
      (other + 1 ≠ number →
        (tables.withoutScope number).scopes.get? (place + 1) = tables.scopes.get? (other + 1)) := by
  obtain ⟨row, hrow⟩ := Option.isSome_iff_exists.1 hmethod
  have hgood : row.Good (tables.withoutScope number) heaps scope.method :=
    good_of_skippedMethods_eq_zero hrest hrow
  have hread : ∀ {place : Nat}, (tables.withoutScope number).scopes.get? place = some scope →
      scope.Readable (tables.withoutScope number) heaps place := fun hplace =>
    hgood.scopes (_, scope) (Rows.mem_entries_iff.2 hplace) rfl
  have hget := Rows.get?_without hnumber tables.scopes
  rcases Nat.lt_or_gt_of_ne hother with hlt | hgt
  · refine ⟨other, hread ?_, fun hnext => ?_⟩
    · exact (hget other).trans (by rw [if_pos hlt, hscope])
    · exact (hget (other + 1)).trans (if_pos (by omega))
  · obtain ⟨place, rfl⟩ : ∃ place, other = place + 1 :=
      Nat.exists_eq_succ_of_ne_zero (Rows.ne_zero_of_get? hscope)
    refine ⟨place, hread ?_, fun _ => ?_⟩
    · exact (hget place).trans (by rw [if_neg (by omega), hscope])
    · exact (hget (place + 1)).trans (if_neg (by omega))

/-- If a row of scopes has a start outside of its table and nothing else is wrong with any method,
then exactly two methods can be skipped: the one that the row names, and the one that the row before
it names if its run is spoiled. -/
theorem skips_iff_of_outside (hbad : tables.scopes.get? number = some bad)
    (houtside : bad.StartsOutside tables)
    (hrest : (ofTables (tables.withoutScope number) heaps).skippedMethods = 0) (method : Nat) :
    (ofTables tables heaps).Skips method ↔
      (tables.methods.get? method).isSome ∧
        (method = bad.method ∨ ∃ before, tables.scopes.get? (number - 1) = some before ∧
          method = before.method ∧ before.SpoiledBy tables heaps (number - 1) bad) := by
  have hnumber := Rows.ne_zero_of_get? hbad
  have hvariables := tables.variables_withoutScope number
  have hconstants := tables.constants_withoutScope number
  constructor
  · intro hskips
    obtain ⟨row, hrow, hnotGood⟩ := skips_ofTables_iff.1 hskips
    have hmethod : (tables.methods.get? method).isSome := by rw [hrow, Option.isSome_some]
    have hwithout : row.Good (tables.withoutScope number) heaps method :=
      good_of_skippedMethods_eq_zero hrest hrow
    obtain ⟨other, scope, hscope, rfl, hunreadable⟩ : ∃ other scope,
        tables.scopes.get? other = some scope ∧ scope.method = method ∧
          ¬scope.Readable tables heaps other := by
      by_contra hall
      push Not at hall
      exact hnotGood ⟨fun entry hentry hnames =>
        hall entry.1 entry.2 (Rows.mem_entries_iff.1 hentry) hnames, hwithout.points⟩
    refine ⟨hmethod, ?_⟩
    by_cases hother : other = number
    · rw [hother, hbad] at hscope
      cases hscope
      exact .inl rfl
    · obtain ⟨place, hplace, hnext⟩ :=
        exists_readable_withoutScope hnumber hrest hscope hother hmethod
      by_cases hbefore : other + 1 = number
      · obtain rfl : other = number - 1 := by omega
        rw [← hbefore] at hbad
        exact .inr ⟨scope, hscope, rfl, (ScopeRow.not_readable_iff_spoiledBy hvariables hconstants
          hplace hbad).1 hunreadable⟩
      · exact absurd ((ScopeRow.readable_congr hvariables hconstants (hnext hbefore)).1 hplace)
          hunreadable
  · rintro ⟨hmethod, rfl | ⟨before, hbefore, rfl, hspoiled⟩⟩
    · exact skips_of_not_readable hbad (ScopeRow.not_readable_of_startsOutside houtside) hmethod
    · obtain ⟨place, hplace, -⟩ :=
        exists_readable_withoutScope hnumber hrest hbefore (by omega) hmethod
      have hnext : tables.scopes.get? (number - 1 + 1) = some bad := by
        rw [Nat.sub_one_add_one hnumber, hbad]
      exact skips_of_not_readable hbefore
        ((ScopeRow.not_readable_iff_spoiledBy hvariables hconstants hplace hnext).2 hspoiled)
        hmethod

/-- Two methods with a scope each and no locals.  The second scope starts its variables at zero. -/
def zeroStartTables : Tables where
  documents := ⟨#[⟨3, 0, 0, 0⟩]⟩
  methods := ⟨#[⟨1, 6⟩, ⟨1, 6⟩]⟩
  scopes := ⟨#[⟨1, 0, 1, 1, 0, 4⟩, ⟨2, 0, 0, 1, 0, 4⟩]⟩
  «variables» := .empty
  constants := .empty

def zeroStartHeaps : Heaps :=
  { scatteredHeaps with
    blobs := [0, 1, 0x61, 2, 0x2F, 1, 6, 0, 0, 10, 2, 10, 1].toByteArray }

theorem skips_iff_of_outside_zeroStart :
    zeroStartTables.scopes.get? 2 = some ⟨2, 0, 0, 1, 0, 4⟩ ∧
      (ofTables (zeroStartTables.withoutScope 2) zeroStartHeaps).skippedMethods = 0 ∧
      (ofTables zeroStartTables zeroStartHeaps).Skips 1 ∧
      (ofTables zeroStartTables zeroStartHeaps).Skips 2 ∧
      ¬(ofTables zeroStartTables zeroStartHeaps).Skips 3 := by
  have hbad : zeroStartTables.scopes.get? 2 = some ⟨2, 0, 0, 1, 0, 4⟩ := rfl
  have hrest : (ofTables (zeroStartTables.withoutScope 2) zeroStartHeaps).skippedMethods = 0 := by
    decide +kernel
  have hskips := skips_iff_of_outside hbad (.inl rfl) hrest
  refine ⟨hbad, hrest, (hskips 1).2 ⟨rfl, .inr ⟨_, rfl, rfl, .inl (by decide)⟩⟩,
    (hskips 2).2 ⟨rfl, .inl rfl⟩, fun hthird => ?_⟩
  cases ((hskips 3).1 hthird).1

/-- A scope with a bad start can take down a method that it does not name. -/
theorem exists_bystander_skipped : ∃ tables heaps number method bad,
    tables.scopes.get? number = some bad ∧ bad.StartsOutside tables ∧
      (ofTables (tables.withoutScope number) heaps).skippedMethods = 0 ∧
      (ofTables tables heaps).Skips method ∧ method ≠ bad.method :=
  ⟨zeroStartTables, zeroStartHeaps, 2, 1, ⟨2, 0, 0, 1, 0, 4⟩, rfl, .inl rfl, by decide +kernel,
    by decide +kernel, by decide⟩

end DocumentIndex

end PortablePdb
