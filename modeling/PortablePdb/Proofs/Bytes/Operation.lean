import PortablePdb.Proofs.Bytes.Fronts
import PortablePdb.Proofs.RelatedLists
import PortablePdb.Table.Column

/-!
# Operations on cursors

The operations on cursors as data, so that sequences of them can be quantified over.  Their
arguments are the words of a 64-bit machine, signed ones for relative moves.  A sequence runs over
a growing list of cursors: opening a window appends a cursor and leaves the others alone, and every
other operation moves the cursor that it is called on.

What carries out the operations is a parameter.  Two implementations whose operations agree on
related cursors cannot be told apart by any sequence: `Implementation.Simulates.run`.
-/

namespace PortablePdb

inductive Operation where
  | truncate (length : UInt64)
  | seek (offset : UInt64)
  | skip (distance : Int64)
  | peek
  | u8
  | u16
  | u32
  | u64
  | bytes (count : UInt64)
  | rest
  | compressedUnsigned
  | compressedSigned
  | heapIndex (heapSizes : UInt8) (heap : HeapKind)
  | tableIndex (header : TableStreamHeader) (table : TableId)

inductive Answer where
  | done
  | byte (value : UInt8)
  | number (value : Nat)
  | integer (value : Int)
  | bytes (value : List UInt8)
  deriving DecidableEq

/-- A call names the cursor it is made on by its place in the list. -/
inductive Call where
  | window (target : Nat) (offset length : UInt64)
  | perform (target : Nat) (operation : Operation)

/-- What can be asked of a cursor without moving it. -/
structure View where
  offset : Nat
  length : Nat
  remaining : Nat
  atEnd : Bool
  isEmpty : Bool
  deriving DecidableEq

/-- The answer to a call, if its target exists, and the cursors as they are seen after it. -/
structure Event where
  answer : Option (Except ReadError Answer)
  views : List View

/-- What carries out the operations.  There is no answer where it crashes. -/
structure Implementation (C : Type) where
  window : (offset length : Nat) → C → Except ReadError C
  perform : Operation → C → Option (Except ReadError Answer × C)
  view : C → Option View

namespace Implementation

variable {C D : Type}

def step (implementation : Implementation C) (pool : List C) :
    Call → Option (Option (Except ReadError Answer) × List C)
  | .window target offset length =>
      match pool[target]? with
      | none => some (none, pool)
      | some cursor =>
          match implementation.window offset.toNat length.toNat cursor with
          | .ok opened => some (some (.ok .done), pool ++ [opened])
          | .error error => some (some (.error error), pool)
  | .perform target operation =>
      match pool[target]? with
      | none => some (none, pool)
      | some cursor => do
          let (result, next) ← implementation.perform operation cursor
          return (some result, pool.set target next)

def run (implementation : Implementation C) :
    List C → List Call → Option (List Event × List C)
  | pool, [] => some ([], pool)
  | pool, call :: calls => do
      let (answer, next) ← implementation.step pool call
      let views ← next.mapM implementation.view
      let (events, last) ← implementation.run next calls
      return (⟨answer, views⟩ :: events, last)

/-! ## Simulation -/

/-- On related cursors both answer alike, and go on with related ones. -/
structure Simulates (first : Implementation C) (second : Implementation D)
    (relation : C → D → Prop) : Prop where
  window : ∀ offset length cursor other, relation cursor other →
    (∃ error, first.window offset length cursor = .error error ∧
      second.window offset length other = .error error) ∨
    ∃ opened opened', first.window offset length cursor = .ok opened ∧
      second.window offset length other = .ok opened' ∧ relation opened opened'
  perform : ∀ operation cursor other, relation cursor other →
    ∃ result next next', first.perform operation cursor = some (result, next) ∧
      second.perform operation other = some (result, next') ∧ relation next next'
  view : ∀ cursor other, relation cursor other →
    ∃ seen, first.view cursor = some seen ∧ second.view other = some seen

variable {first : Implementation C} {second : Implementation D} {relation : C → D → Prop}

theorem getElem?_cases {pool : List C} {others : List D}
    (hpool : List.Forall₂ relation pool others) (target : Nat) :
    (pool[target]? = none ∧ others[target]? = none) ∨
      ∃ cursor other, pool[target]? = some cursor ∧ others[target]? = some other ∧
        relation cursor other := by
  induction hpool generalizing target with
  | nil => exact .inl ⟨rfl, rfl⟩
  | cons hhead _ ih =>
      cases target with
      | zero => exact .inr ⟨_, _, rfl, rfl, hhead⟩
      | succ target => exact ih target

theorem forall₂_set {pool : List C} {others : List D} (hpool : List.Forall₂ relation pool others)
    {next : C} {next' : D} (hnext : relation next next') (target : Nat) :
    List.Forall₂ relation (pool.set target next) (others.set target next') := by
  induction hpool generalizing target with
  | nil => exact .nil
  | cons hhead htail ih =>
      cases target with
      | zero => exact .cons hnext htail
      | succ target => exact .cons hhead (ih target)

theorem Simulates.step (hsimulates : Simulates first second relation) {pool : List C}
    {others : List D} (hpool : List.Forall₂ relation pool others) (call : Call) :
    ∃ answer next next', first.step pool call = some (answer, next) ∧
      second.step others call = some (answer, next') ∧ List.Forall₂ relation next next' := by
  cases call with
  | window target offset length =>
      rcases getElem?_cases hpool target with ⟨hnone, hnone'⟩ | ⟨cursor, other, hsome, hsome', hrel⟩
      · exact ⟨none, pool, others, by simp only [Implementation.step, hnone],
          by simp only [Implementation.step, hnone'], hpool⟩
      · rcases hsimulates.window offset.toNat length.toNat cursor other hrel with
          ⟨error, herror, herror'⟩ | ⟨opened, opened', hopened, hopened', hwindows⟩
        · exact ⟨some (.error error), pool, others,
            by simp only [Implementation.step, hsome, herror],
            by simp only [Implementation.step, hsome', herror'], hpool⟩
        · exact ⟨some (.ok .done), pool ++ [opened], others ++ [opened'],
            by simp only [Implementation.step, hsome, hopened],
            by simp only [Implementation.step, hsome', hopened'],
            List.rel_append hpool (.cons hwindows .nil)⟩
  | perform target operation =>
      rcases getElem?_cases hpool target with ⟨hnone, hnone'⟩ | ⟨cursor, other, hsome, hsome', hrel⟩
      · exact ⟨none, pool, others, by simp only [Implementation.step, hnone],
          by simp only [Implementation.step, hnone'], hpool⟩
      · obtain ⟨result, next, next', hnext, hnext', hmoved⟩ :=
          hsimulates.perform operation cursor other hrel
        exact ⟨some result, pool.set target next, others.set target next',
          by simp only [Implementation.step, hsome, hnext]; rfl,
          by simp only [Implementation.step, hsome', hnext']; rfl,
          forall₂_set hpool hmoved target⟩

theorem Simulates.views (hsimulates : Simulates first second relation) {pool : List C}
    {others : List D} (hpool : List.Forall₂ relation pool others) :
    ∃ views, pool.mapM first.view = some views ∧ others.mapM second.view = some views := by
  induction hpool with
  | nil => exact ⟨[], rfl, rfl⟩
  | cons hhead _ ih =>
      obtain ⟨seen, hseen, hseen'⟩ := hsimulates.view _ _ hhead
      obtain ⟨views, hviews, hviews'⟩ := ih
      exact ⟨seen :: views, by simp [hseen, hviews], by simp [hseen', hviews']⟩

theorem Simulates.run (hsimulates : Simulates first second relation) {pool : List C}
    {others : List D} (hpool : List.Forall₂ relation pool others) (calls : List Call) :
    ∃ events last last', first.run pool calls = some (events, last) ∧
      second.run others calls = some (events, last') ∧ List.Forall₂ relation last last' := by
  induction calls generalizing pool others with
  | nil => exact ⟨[], pool, others, rfl, rfl, hpool⟩
  | cons call calls ih =>
      obtain ⟨answer, next, next', hstep, hstep', hnext⟩ := hsimulates.step hpool call
      obtain ⟨views, hviews, hviews'⟩ := hsimulates.views hnext
      obtain ⟨events, last, last', hrun, hrun', hlast⟩ := ih hnext
      refine ⟨⟨answer, views⟩ :: events, last, last', ?_, ?_, hlast⟩
      · simp only [Implementation.run, hstep, hviews, hrun, bind, Option.bind]
        rfl
      · simp only [Implementation.run, hstep', hviews', hrun', bind, Option.bind]
        rfl

/-! ## What only ever changes one way -/

section Narrowing

variable {implementation : Implementation C} {narrower : C → C → Prop}

/-- Cursors keep their places, and those that were there before have become narrower. -/
def Narrows (narrower : C → C → Prop) (pool later : List C) : Prop :=
  ∀ (target : Nat) cursor, pool[target]? = some cursor →
    ∃ next, later[target]? = some next ∧ narrower next cursor

theorem narrows_step (hrefl : ∀ cursor, narrower cursor cursor)
    (hperform : ∀ operation cursor result next,
      implementation.perform operation cursor = some (result, next) → narrower next cursor)
    {pool next : List C} {call : Call} {answer : Option (Except ReadError Answer)}
    (hstep : implementation.step pool call = some (answer, next)) :
    Narrows narrower pool next := by
  have hsame : Narrows narrower pool pool := fun target cursor hcursor =>
    ⟨cursor, hcursor, hrefl cursor⟩
  cases call with
  | window target offset length =>
      simp only [step] at hstep
      split at hstep
      · cases hstep
        exact hsame
      · split at hstep
        · cases hstep
          intro place cursor hcursor
          obtain ⟨hplace, -⟩ := List.getElem?_eq_some_iff.1 hcursor
          exact ⟨cursor, by rw [List.getElem?_append_left hplace, hcursor], hrefl cursor⟩
        · cases hstep
          exact hsame
  | perform target operation =>
      simp only [step] at hstep
      split at hstep
      · cases hstep
        exact hsame
      · rename_i found hfound
        obtain ⟨⟨result, moved⟩, hmoved, hpure⟩ := Option.bind_eq_some_iff.1 hstep
        cases hpure
        intro place cursor hcursor
        obtain ⟨hplace, -⟩ := List.getElem?_eq_some_iff.1 hcursor
        rw [List.getElem?_set]
        by_cases htarget : target = place
        · subst htarget
          rw [hfound] at hcursor
          cases hcursor
          exact ⟨moved, by simp [hplace], hperform operation _ result moved hmoved⟩
        · exact ⟨cursor, by rw [if_neg htarget, hcursor], hrefl cursor⟩

theorem narrows_run (hrefl : ∀ cursor, narrower cursor cursor)
    (htrans : ∀ first second third, narrower third second → narrower second first →
      narrower third first)
    (hperform : ∀ operation cursor result next,
      implementation.perform operation cursor = some (result, next) → narrower next cursor)
    {pool last : List C} {calls : List Call} {events : List Event}
    (hrun : implementation.run pool calls = some (events, last)) :
    Narrows narrower pool last := by
  induction calls generalizing pool events with
  | nil =>
      cases hrun
      exact fun target cursor hcursor => ⟨cursor, hcursor, hrefl cursor⟩
  | cons call calls ih =>
      obtain ⟨⟨answer, next⟩, hstep, hrest⟩ := Option.bind_eq_some_iff.1 hrun
      obtain ⟨views, -, hrest⟩ := Option.bind_eq_some_iff.1 hrest
      obtain ⟨⟨later, rest⟩, hrest, hpure⟩ := Option.bind_eq_some_iff.1 hrest
      cases hpure
      intro target cursor hcursor
      obtain ⟨middle, hmiddle, hnarrow⟩ := narrows_step hrefl hperform hstep target cursor hcursor
      obtain ⟨final, hfinal, hnarrower⟩ := ih hrest target middle hmiddle
      exact ⟨final, hfinal, htrans cursor middle final hnarrower hnarrow⟩

end Narrowing

end Implementation

/-! ## The cursor -/

namespace Operation

def reader : Operation → Reader Answer
  | truncate length => (fun _ => .done) <$> Reader.move fun cursor => cursor.truncate length.toNat
  | seek offset => (fun _ => .done) <$> Reader.move fun cursor => cursor.seek offset.toNat
  | skip distance => (fun _ => .done) <$> Reader.move fun cursor => cursor.skip distance.toInt
  | peek => .byte <$> Reader.peek
  | u8 => .number <$> Reader.u8
  | u16 => .number <$> Reader.u16
  | u32 => .number <$> Reader.u32
  | u64 => .number <$> Reader.u64
  | bytes count => (fun found => .bytes found.data.toList) <$> Reader.bytes count.toNat
  | rest => (fun found => .bytes found.data.toList) <$> Reader.rest
  | compressedUnsigned => .number <$> Reader.compressedUnsigned
  | compressedSigned => .integer <$> Reader.compressedSigned
  | heapIndex heapSizes heap =>
      .number <$> Reader.littleEndian (heapIndexWidth heapSizes.toNat heap)
  | tableIndex header table => .number <$> Reader.littleEndian (header.tableIndexWidth table)

end Operation

def Cursor.implementation : Implementation Cursor where
  window offset length cursor := cursor.window offset length
  perform operation cursor := some (operation.reader.outcome cursor)
  view cursor := some ⟨cursor.offset, cursor.length, cursor.remaining, cursor.atEnd, cursor.isEmpty⟩

end PortablePdb
