import PortablePdb.Proofs.Index.Skipped
import PortablePdb.Proofs.SymbolFile.Parsed

/-!
# Which scopes can own the same local

A run of locals ends at the next run's start, so two runs can only share a row if the starts fall
somewhere between them.  Where they fall, the run is malformed.  Main statement: `owners_separated`.
A malformed run is thus the only thing that stands between two owners of a local, and it does not
always keep them apart: the run before it goes on to its start, and the run after it begins anew.
-/

namespace PortablePdb

namespace LocalRun

theorem mem_ids_iff {run : LocalRun} {id : Nat} :
    id ∈ run.ids ↔ run.start ≤ id ∧ id < run.stop := by
  rw [ids, List.mem_range'_1]
  omega

theorem not_disjoint_of_mem {first second : LocalRun} {id : Nat} (hfirst : id ∈ first.ids)
    (hsecond : id ∈ second.ids) : ¬first.ids.Disjoint second.ids :=
  fun hdisjoint => hdisjoint hfirst hsecond

/-- Numbers that are smaller at the end than at the beginning fall at some place. -/
theorem exists_fall (numbers : Nat → Nat) {first last : Nat} (hle : first ≤ last)
    (hsmaller : numbers last < numbers first) :
    ∃ k, first ≤ k ∧ k < last ∧ numbers (k + 1) < numbers k := by
  induction hle with
  | refl => exact absurd hsmaller (Nat.lt_irrefl _)
  | @step last hle ih =>
      by_cases hearlier : numbers last < numbers first
      · obtain ⟨k, hlow, hhigh, hfall⟩ := ih hearlier
        exact ⟨k, hlow, Nat.lt_succ_of_lt hhigh, hfall⟩
      · exact ⟨last, hle, Nat.lt_succ_self last,
          Nat.lt_of_lt_of_le hsmaller (Nat.le_of_not_lt hearlier)⟩

theorem bounded_error_of_fall (table : TableId) (rows scope : Nat) {start next : Nat}
    (hfall : next < start) : ∃ error, bounded table rows scope start (some next) = .error error := by
  cases hbounded : bounded table rows scope start (some next) with
  | error error => exact ⟨error, rfl⟩
  | ok run =>
      obtain ⟨rfl, horder⟩ := bounded_eq_ok_iff.1 hbounded
      simp only [InOrder, between, Option.getD_some] at horder
      omega

/-- Where the starts fall between two runs. -/
structure FallsBetween (starts : List Nat) (i j k : Nat) : Prop where
  after_first : i < k
  before_second : k < j
  falls : ∃ start next, starts[k]? = some start ∧ starts[k + 1]? = some next ∧ next < start

theorem FallsBetween.exists_error {starts : List Nat} {i j k : Nat}
    (hfalls : FallsBetween starts i j k) (table : TableId) (rows : Nat) :
    ∃ error, (all table rows starts)[k]? = some (.error error) := by
  obtain ⟨start, next, hstart, hnext, hlt⟩ := hfalls.falls
  obtain ⟨error, herror⟩ := bounded_error_of_fall table rows (k + 1) hlt
  exact ⟨error, by rw [getElem?_all, hstart, hnext, Option.map_some, herror]⟩

/-- Two runs that share a row have a place between them where the starts fall. -/
theorem exists_fallsBetween {table : TableId} {rows : Nat} {starts : List Nat} {i j : Nat}
    (hlt : i < j) {first second : LocalRun}
    (hfirst : (all table rows starts)[i]? = some (.ok first))
    (hsecond : (all table rows starts)[j]? = some (.ok second))
    (hshared : ¬first.ids.Disjoint second.ids) : ∃ k, FallsBetween starts i j k := by
  rw [getElem?_all] at hfirst hsecond
  obtain ⟨firstStart, hfirstStart, hfirstRun⟩ := Option.map_eq_some_iff.1 hfirst
  obtain ⟨secondStart, hsecondStart, hsecondRun⟩ := Option.map_eq_some_iff.1 hsecond
  obtain ⟨rfl, -⟩ := bounded_eq_ok_iff.1 hfirstRun
  obtain ⟨rfl, -⟩ := bounded_eq_ok_iff.1 hsecondRun
  obtain ⟨id, hidFirst, hidSecond⟩ : ∃ id, id ∈ (between rows firstStart starts[i + 1]?).ids ∧
      id ∈ (between rows secondStart starts[j + 1]?).ids := by
    simpa [List.Disjoint] using hshared
  rw [mem_ids_iff] at hidFirst hidSecond
  have hlength : j < starts.length := (List.getElem?_eq_some_iff.1 hsecondStart).1
  have hget : ∀ {k}, k ≤ j → starts[k]? = some (starts[k]?.getD 0) := by
    intro k hk
    rw [List.getElem?_eq_getElem (by omega), Option.getD_some]
  -- the first run ends at the next start, and the second one begins before that
  have hsmaller : starts[j]?.getD 0 < starts[i + 1]?.getD 0 := by
    rw [hget (k := i + 1) hlt] at hidFirst
    simp only [between, Option.getD_some] at hidFirst hidSecond
    rw [hsecondStart, Option.getD_some]
    omega
  obtain ⟨k, hlow, hhigh, hfall⟩ := exists_fall (fun k => starts[k]?.getD 0)
    (show i + 1 ≤ j from hlt) hsmaller
  exact ⟨k, hlow, hhigh, _, _, hget (Nat.le_of_lt hhigh), hget hhigh, hfall⟩

end LocalRun

/-! ## Runs of the scopes of a file -/

namespace ScopeRow

variable {tables : Tables}

/-- Both rows of scopes own some row of variables, or some row of constants. -/
def ShareLocal (tables : Tables) (i j : Nat) (first second : ScopeRow) : Prop :=
  ¬(first.variableRun tables i).ids.Disjoint (second.variableRun tables j).ids ∨
    ¬(first.constantRun tables i).ids.Disjoint (second.constantRun tables j).ids

/-- The run that a list column gives to the scope with row number `number`. -/
def runOf (tables : Tables) (rows : Nat) (list : ScopeRow → Nat) (number : Nat)
    (row : ScopeRow) : LocalRun :=
  .between rows (list row) ((tables.scopes.get? (number + 1)).map list)

theorem getElem?_all_of_inOrder (table : TableId) (rows : Nat) (list : ScopeRow → Nat)
    {i : Nat} {row : ScopeRow} (hrow : tables.scopes.get? (i + 1) = some row)
    (horder : (row.runOf tables rows list (i + 1)).InOrder) :
    (LocalRun.all table rows (tables.scopes.toArray.toList.map list))[i]? =
      some (.ok (row.runOf tables rows list (i + 1))) := by
  rw [DocumentIndex.getElem?_runs, ← Rows.get?_succ, hrow, Option.map_some]
  exact congrArg some (LocalRun.bounded_eq_ok_iff.2 ⟨rfl, horder⟩)

/-- Two scopes with a common row have a scope between them that starts behind the next one. -/
theorem exists_falling_between (rows : Nat) (list : ScopeRow → Nat) {i j : Nat} (hlt : i < j)
    {first second : ScopeRow} (hfirst : tables.scopes.get? i = some first)
    (hsecond : tables.scopes.get? j = some second)
    (hfirstOrder : (first.runOf tables rows list i).InOrder)
    (hsecondOrder : (second.runOf tables rows list j).InOrder)
    (hshared : ¬(first.runOf tables rows list i).ids.Disjoint
      (second.runOf tables rows list j).ids) :
    ∃ k row, i < k ∧ k < j ∧ tables.scopes.get? k = some row ∧
      ¬(row.runOf tables rows list k).InOrder := by
  obtain ⟨i, rfl⟩ := Nat.exists_eq_succ_of_ne_zero (Rows.ne_zero_of_get? hfirst)
  obtain ⟨j, rfl⟩ := Nat.exists_eq_succ_of_ne_zero (Rows.ne_zero_of_get? hsecond)
  obtain ⟨k, hafter, hbefore, start, next, hstart, hnext, hfall⟩ :=
    LocalRun.exists_fallsBetween (Nat.lt_of_succ_lt_succ hlt)
      (getElem?_all_of_inOrder .localVariable rows list hfirst hfirstOrder)
      (getElem?_all_of_inOrder .localVariable rows list hsecond hsecondOrder) hshared
  rw [List.getElem?_map, Array.getElem?_toList, ← Rows.get?_succ] at hstart hnext
  obtain ⟨row, hrow, rfl⟩ := Option.map_eq_some_iff.1 hstart
  refine ⟨k + 1, row, Nat.succ_lt_succ hafter, Nat.succ_lt_succ hbefore, hrow, fun horder => ?_⟩
  simp only [runOf, hnext, LocalRun.InOrder, LocalRun.between, Option.getD_some] at horder
  omega

/-- Two scopes that can be read and share a local have a scope between them that cannot. -/
theorem exists_unreadable_between {heaps : Heaps} {i j : Nat} (hlt : i < j)
    {first second : ScopeRow} (hfirst : tables.scopes.get? i = some first)
    (hsecond : tables.scopes.get? j = some second) (hfirstReads : first.Readable tables heaps i)
    (hsecondReads : second.Readable tables heaps j) (hshared : ShareLocal tables i j first second) :
    ∃ k row, i < k ∧ k < j ∧ tables.scopes.get? k = some row ∧ ¬row.Readable tables heaps k := by
  rcases hshared with hshared | hshared
  · obtain ⟨k, row, hafter, hbefore, hrow, hnot⟩ :=
      exists_falling_between tables.variables.count variableList hlt hfirst hsecond
        hfirstReads.variables_inOrder hsecondReads.variables_inOrder hshared
    exact ⟨k, row, hafter, hbefore, hrow, fun hreads => hnot hreads.variables_inOrder⟩
  · obtain ⟨k, row, hafter, hbefore, hrow, hnot⟩ :=
      exists_falling_between tables.constants.count constantList hlt hfirst hsecond
        hfirstReads.constants_inOrder hsecondReads.constants_inOrder hshared
    exact ⟨k, row, hafter, hbefore, hrow, fun hreads => hnot hreads.constants_inOrder⟩

end ScopeRow

/-- Runs share no row unless the starts fall between them, and then a run between them is malformed.
In a parsed file, scopes share no local unless a scope between them cannot be read, and then that
scope's method is left out. -/
theorem owners_separated (table : TableId) (rows : Nat) (starts : List Nat) {data : ByteArray}
    {file : SymbolFile} (hparse : SymbolFile.parse data = .ok file) :
    (∀ (i j : Nat) (first second : LocalRun), i < j →
      (LocalRun.all table rows starts)[i]? = some (.ok first) →
      (LocalRun.all table rows starts)[j]? = some (.ok second) →
        first.ids.Disjoint second.ids ∨
          ∃ k error, LocalRun.FallsBetween starts i j k ∧
            (LocalRun.all table rows starts)[k]? = some (.error error)) ∧
    ∃ heaps, SymbolFile.heapsIn data file.streamHeaders = .ok heaps ∧
      file.index = .ofTables file.tables heaps ∧
      ∀ (i j : Nat) (first second : ScopeRow), i < j →
        file.tables.scopes.get? i = some first → file.tables.scopes.get? j = some second →
        first.Readable file.tables heaps i → second.Readable file.tables heaps j →
          ¬ScopeRow.ShareLocal file.tables i j first second ∨
            ∃ k row, i < k ∧ k < j ∧ file.tables.scopes.get? k = some row ∧
              ¬row.Readable file.tables heaps k ∧
              ((file.tables.methods.get? row.method).isSome → file.index.Skips row.method) := by
  constructor
  · intro i j first second hlt hfirst hsecond
    by_cases hdisjoint : first.ids.Disjoint second.ids
    · exact .inl hdisjoint
    · obtain ⟨k, hfalls⟩ := LocalRun.exists_fallsBetween hlt hfirst hsecond hdisjoint
      obtain ⟨error, herror⟩ := hfalls.exists_error table rows
      exact .inr ⟨k, error, hfalls, herror⟩
  · obtain ⟨heaps, hheaps, hindex⟩ := (SymbolFile.parse_eq_ok_iff.1 hparse).index
    refine ⟨heaps, hheaps, hindex, ?_⟩
    intro i j first second hlt hfirst hsecond hfirstReads hsecondReads
    by_cases hshared : ScopeRow.ShareLocal file.tables i j first second
    · obtain ⟨k, row, hafter, hbefore, hrow, hbad⟩ := ScopeRow.exists_unreadable_between hlt
        hfirst hsecond hfirstReads hsecondReads hshared
      refine .inr ⟨k, row, hafter, hbefore, hrow, hbad, fun hmethod => ?_⟩
      rw [hindex]
      exact DocumentIndex.skips_of_not_readable hrow hbad hmethod
    · exact .inl hshared

/-- Three methods with a scope each and one variable.  The second scope starts behind the end of the
table, and the other two own the variable. -/
def twiceOwnedImage : ByteArray :=
  [0x42, 0x53, 0x4A, 0x42, 1, 0, 1, 0, 0, 0, 0, 0, 0, 0, 0, 0, 0, 0, 3, 0,
    68, 0, 0, 0, 0x72, 0, 0, 0, 0x23, 0x7E, 0, 0,
    182, 0, 0, 0, 3, 0, 0, 0, 0x23, 0x53, 0x74, 0x72, 0x69, 0x6E, 0x67, 0x73, 0, 0, 0, 0,
    185, 0, 0, 0, 13, 0, 0, 0, 0x23, 0x42, 0x6C, 0x6F, 0x62, 0, 0, 0,
    0, 0, 0, 0, 2, 0, 0, 1, 0, 0, 0, 0, 0, 0, 15, 0, 0, 0, 0, 0, 0, 0, 0, 0,
    1, 0, 0, 0, 3, 0, 0, 0, 3, 0, 0, 0, 1, 0, 0, 0,
    3, 0, 0, 0, 0, 0, 0, 0,
    1, 0, 6, 0, 1, 0, 6, 0, 1, 0, 6, 0,
    1, 0, 0, 0, 1, 0, 1, 0, 0, 0, 0, 0, 4, 0, 0, 0,
    2, 0, 0, 0, 2, 0, 1, 0, 0, 0, 0, 0, 4, 0, 0, 0,
    3, 0, 0, 0, 1, 0, 1, 0, 0, 0, 0, 0, 4, 0, 0, 0,
    0, 0, 0, 0, 1, 0,
    0, 0x78, 0,
    0, 1, 0x61, 2, 0x2F, 1, 6, 0, 0, 10, 2, 10, 1].toByteArray

/-- What the index holds of each method: its row number and the variables of each of its scopes. -/
def variableNames (file : SymbolFile) : List (List (Nat × List (List String))) :=
  file.documents.map fun info => info.methods.map fun method =>
    (method.row, method.scopes.map fun scope => scope.variables.map LocalVariable.name)

/-- Both the first and the third scope have the variable, and the second method is missing. -/
@[reducible]
def TwiceOwned (file : SymbolFile) : Prop :=
  file.tables.scopes.get? 1 = some ⟨1, 0, 1, 1, 0, 4⟩ ∧
    file.tables.scopes.get? 3 = some ⟨3, 0, 1, 1, 0, 4⟩ ∧
    1 ∈ (ScopeRow.variableRun file.tables 1 ⟨1, 0, 1, 1, 0, 4⟩).ids ∧
    1 ∈ (ScopeRow.variableRun file.tables 3 ⟨3, 0, 1, 1, 0, 4⟩).ids ∧
    file.tables.methods.toArray = #[⟨1, 6⟩, ⟨1, 6⟩, ⟨1, 6⟩] ∧
    file.index.malformedMethods.map Prod.fst = [2] ∧
    variableNames file = [[(1, [["x"]]), (3, [["x"]])]]

theorem exists_twiceOwned : ∃ file, SymbolFile.parse twiceOwnedImage = .ok file ∧
    TwiceOwned file := by
  obtain ⟨file, hparse, hcheck⟩ := SymbolFile.exists_parse_of_any (fun file => TwiceOwned file)
    (show (SymbolFile.parse twiceOwnedImage).toOption.any _ = true by decide +kernel)
  exact ⟨file, hparse, of_decide_eq_true hcheck⟩

theorem readable_of_not_skips {tables : Tables} {heaps : Heaps} {number : Nat} {scope : ScopeRow}
    (hscope : tables.scopes.get? number = some scope)
    (hmethod : (tables.methods.get? scope.method).isSome)
    (hkept : ¬(DocumentIndex.ofTables tables heaps).Skips scope.method) :
    scope.Readable tables heaps number := by
  by_contra hbad
  exact hkept (DocumentIndex.skips_of_not_readable hscope hbad hmethod)

/-- The variable's two owners have the second scope between them, whose method is left out. -/
theorem owners_separated_twiceOwned :
    (∃ k error, LocalRun.FallsBetween [1, 2, 1] 0 2 k ∧
      (LocalRun.all .localVariable 1 [1, 2, 1])[k]? = some (.error error)) ∧
    ∃ file heaps first second, SymbolFile.parse twiceOwnedImage = .ok file ∧
      SymbolFile.heapsIn twiceOwnedImage file.streamHeaders = .ok heaps ∧
      file.tables.scopes.get? 1 = some first ∧ file.tables.scopes.get? 3 = some second ∧
      first.Readable file.tables heaps 1 ∧ second.Readable file.tables heaps 3 ∧
      ScopeRow.ShareLocal file.tables 1 3 first second ∧
      ∃ row, file.tables.scopes.get? 2 = some row ∧ ¬row.Readable file.tables heaps 2 ∧
        ((file.tables.methods.get? row.method).isSome → file.index.Skips row.method) := by
  obtain ⟨file, hparse, hfirst, hsecond, hfirstOwns, hsecondOwns, hmethods, hskipped, -⟩ :=
    exists_twiceOwned
  obtain ⟨hruns, heaps, hheaps, hindex, hscopes⟩ :=
    owners_separated .localVariable 1 [1, 2, 1] hparse
  constructor
  · exact (hruns 0 2 ⟨1, 2⟩ ⟨1, 2⟩ (by decide) rfl rfl).resolve_left
      (LocalRun.not_disjoint_of_mem (show 1 ∈ _ by decide) (by decide))
  · have hfirstReads : ScopeRow.Readable file.tables heaps 1 ⟨1, 0, 1, 1, 0, 4⟩ := by
      refine readable_of_not_skips hfirst (by simp [Rows.get?, hmethods]) ?_
      simp [← hindex, DocumentIndex.Skips, hskipped]
    have hsecondReads : ScopeRow.Readable file.tables heaps 3 ⟨3, 0, 1, 1, 0, 4⟩ := by
      refine readable_of_not_skips hsecond (by simp [Rows.get?, hmethods]) ?_
      simp [← hindex, DocumentIndex.Skips, hskipped]
    have hshared : ScopeRow.ShareLocal file.tables 1 3 ⟨1, 0, 1, 1, 0, 4⟩ ⟨3, 0, 1, 1, 0, 4⟩ :=
      .inl (LocalRun.not_disjoint_of_mem hfirstOwns hsecondOwns)
    obtain ⟨k, row, hafter, hbefore, hrow, hbad, hskips⟩ :=
      (hscopes 1 3 _ _ (by decide) hfirst hsecond hfirstReads hsecondReads).resolve_left
        (not_not_intro hshared)
    obtain rfl : k = 2 := by omega
    exact ⟨file, heaps, _, _, hparse, hheaps, hfirst, hsecond, hfirstReads, hsecondReads, hshared,
      row, hrow, hbad, hskips⟩

/-- Runs at two places can share a row, and so can the scopes of a file that the index reads. -/
theorem exists_local_owned_twice :
    (∃ (table : TableId) (rows : Nat) (starts : List Nat) (i j : Nat) (first second : LocalRun),
      i ≠ j ∧
      (LocalRun.all table rows starts)[i]? = some (.ok first) ∧
      (LocalRun.all table rows starts)[j]? = some (.ok second) ∧
      ¬first.ids.Disjoint second.ids) ∧
    ∃ file first second, SymbolFile.parse twiceOwnedImage = .ok file ∧
      file.tables.scopes.get? 1 = some first ∧ file.tables.scopes.get? 3 = some second ∧
      ScopeRow.ShareLocal file.tables 1 3 first second ∧
      variableNames file = [[(1, [["x"]]), (3, [["x"]])]] := by
  constructor
  · exact ⟨.localVariable, 1, [1, 2, 1], 0, 2, ⟨1, 2⟩, ⟨1, 2⟩, by decide, rfl, rfl,
      LocalRun.not_disjoint_of_mem (show 1 ∈ _ by decide) (by decide)⟩
  · obtain ⟨file, hparse, hfirst, hsecond, hfirstOwns, hsecondOwns, -, -, hnames⟩ :=
      exists_twiceOwned
    exact ⟨file, _, _, hparse, hfirst, hsecond,
      .inl (LocalRun.not_disjoint_of_mem hfirstOwns hsecondOwns), hnames⟩

end PortablePdb
