import PortablePdb.Proofs.Machine.Scopes

/-!
# The index in the machine

The documents are collected in slots, one for each row number, of which that of a document that
cannot be read stays empty.  The parts of each method are then put into the slots of their
documents.  Whatever fails is counted, so no count exceeds that of the rows.

The step lemmas say what one document, one part and one method change.  The run lemmas say by
induction what all of them leave behind, which is what the index of the tables has.
-/

namespace PortablePdb

structure WordIndex where
  /-- The document with each row number, unless it cannot be read. -/
  slots : Array (Option DocumentInfo)
  skippedDocuments : Nat
  skippedMethods : Nat
  log : List LogEntry

def documentWarning (failure : Nat × ReadError) : LogEntry where
  level := .warn
  message := "skipping malformed document"
  fields := [("document", .number failure.1), ("error", .text failure.2.message)]

def methodWarning (failure : Nat × ReadError) : LogEntry where
  level := .warn
  message := "skipping malformed method"
  fields := [("method", .number failure.1), ("error", .text failure.2.message)]

namespace WordIndex

def empty : WordIndex :=
  ⟨#[none], 0, 0, []⟩

/-- The documents of the slots that are not empty. -/
def documents (index : WordIndex) : List DocumentInfo :=
  index.slots.toList.filterMap id

def addDocument (index : WordIndex) (result : Nat × Except ReadError DocumentInfo) :
    Option WordIndex :=
  match result with
  | (_, .ok info) => some { index with slots := index.slots.push (some info) }
  | (number, .error error) => do
      let skippedDocuments ← Word.add? index.skippedDocuments 1
      return { index with
        slots := index.slots.push none
        skippedDocuments
        log := index.log ++ [documentWarning (number, error)] }

/-- Adds the part of a method to its document.  There may be no such document. -/
def addPart (slots : Array (Option DocumentInfo)) (part : Nat × MethodInfo) :
    Array (Option DocumentInfo) :=
  slots.modify part.1 fun slot =>
    slot.map fun info => { info with methods := info.methods ++ [part.2] }

def addMethod (index : WordIndex) (result : Nat × Except ReadError (List (Nat × MethodInfo))) :
    Option WordIndex :=
  match result with
  | (_, .ok parts) => some { index with slots := parts.foldl addPart index.slots }
  | (number, .error error) => do
      let skippedMethods ← Word.add? index.skippedMethods 1
      return { index with
        skippedMethods
        log := index.log ++ [methodWarning (number, error)] }

def addDocuments (tables : WordTables) (heaps : WordHeaps) (index : WordIndex) :
    Option WordIndex :=
  tables.documents.entries.foldlM (fun index entry => do
    let document ← (Guarded.document heaps entry.1 entry.2).outcome
    index.addDocument (entry.1, document)) index

/-- Adds all methods.  The scopes of each are found by the low bits of its row number. -/
def addMethods (tables : WordTables) (heaps : WordHeaps)
    (scopes : List (Nat × Except ReadError Scope)) (index : WordIndex) : Option WordIndex :=
  tables.methods.entries.foldlM (fun index entry => do
    let own := (scopes.filter fun scope => scope.1 = Word.narrow entry.1).map Prod.snd
    let parts ← (Guarded.methodParts tables heaps entry.1 own).outcome
    index.addMethod (entry.1, parts)) index

def ofTables (tables : WordTables) (heaps : WordHeaps) : Option WordIndex := do
  let count ← tables.documents.count?
  let _ ← Word.add? count 1
  let withDocuments ← addDocuments tables heaps empty
  let scopes ← Guarded.scopes tables heaps
  addMethods tables heaps scopes withDocuments

/-! ## One pass over the rows -/

/-- A pass that computes a result for each row and then uses it only depends on the results. -/
theorem foldlM_eq {α Item Result : Type} {items : List Item} {step : α → Item → Option α}
    {use : α → Result → Option α} {value : Item → Result}
    (hstep : ∀ item ∈ items, ∀ state, step state item = use state (value item)) (first : α) :
    items.foldlM step first = (items.map value).foldlM use first := by
  induction items generalizing first with
  | nil => rfl
  | cons item items ih =>
      obtain ⟨hitem, hitems⟩ := List.forall_mem_cons.1 hstep
      rw [List.foldlM_cons, List.map_cons, List.foldlM_cons, hitem first]
      exact congrArg (use first (value item) >>= ·) (funext fun next => ih hitems next)

open DocumentIndex

theorem foldlM_addDocument {results : List (Nat × Except ReadError DocumentInfo)}
    {index : WordIndex} (hcount : index.skippedDocuments + results.length < Word.limit) :
    results.foldlM addDocument index = some { index with
      slots := index.slots ++ (results.map fun result => result.2.toOption).toArray
      skippedDocuments := index.skippedDocuments + (failures results).length
      log := index.log ++ (failures results).map documentWarning } := by
  -- The counter has room for all results that are left, so also for the one that it counts next.
  induction results generalizing index with
  | nil => simp [failures]
  | cons result results ih =>
      rw [List.length_cons] at hcount
      obtain ⟨number, result⟩ := result
      cases result with
      | ok info =>
          have hrest := @ih { index with slots := index.slots.push (some info) }
            (by dsimp only; omega)
          rw [List.foldlM_cons, addDocument, Option.bind_eq_bind, Option.bind_some, hrest]
          simp [failures, Except.toOption]
      | error error =>
          have hsum : Word.add? index.skippedDocuments 1 = some (index.skippedDocuments + 1) :=
            Word.add?_of_lt (by omega)
          have hrest := @ih { index with
            slots := index.slots.push none
            skippedDocuments := index.skippedDocuments + 1
            log := index.log ++ [documentWarning (number, error)] } (by dsimp only; omega)
          rw [List.foldlM_cons, addDocument, hsum, Option.bind_eq_bind, Option.bind_eq_bind,
            Option.bind_some]
          refine hrest.trans ?_
          simp [failures, Except.toOption]
          omega

theorem foldlM_addMethod {results : List (Nat × Except ReadError (List (Nat × MethodInfo)))}
    {index : WordIndex} (hcount : index.skippedMethods + results.length < Word.limit) :
    results.foldlM addMethod index = some { index with
      slots := (successes results).flatten.foldl addPart index.slots
      skippedMethods := index.skippedMethods + (failures results).length
      log := index.log ++ (failures results).map methodWarning } := by
  induction results generalizing index with
  | nil => simp [failures, successes]
  | cons result results ih =>
      rw [List.length_cons] at hcount
      obtain ⟨number, result⟩ := result
      cases result with
      | ok parts =>
          have hrest := @ih { index with slots := parts.foldl addPart index.slots }
            (by dsimp only; omega)
          rw [List.foldlM_cons, addMethod, Option.bind_eq_bind, Option.bind_some, hrest]
          simp [failures, successes]
      | error error =>
          have hsum : Word.add? index.skippedMethods 1 = some (index.skippedMethods + 1) :=
            Word.add?_of_lt (by omega)
          have hrest := @ih { index with
            skippedMethods := index.skippedMethods + 1
            log := index.log ++ [methodWarning (number, error)] } (by dsimp only; omega)
          rw [List.foldlM_cons, addMethod, hsum, Option.bind_eq_bind, Option.bind_eq_bind,
            Option.bind_some]
          refine hrest.trans ?_
          simp [failures, successes]
          omega

section
variable {tables : Tables} {heaps : Heaps}

theorem addDocuments_eq (htables : tables.Narrow) (hblobs : heaps.blobs.size < Word.limit) :
    addDocuments tables.words heaps.words empty = some { empty with
      slots := #[none] ++
        ((documentResults tables heaps).map fun result => result.2.toOption).toArray
      skippedDocuments := (DocumentIndex.ofTables tables heaps).skippedDocuments
      log := (failures (documentResults tables heaps)).map documentWarning } := by
  have hcount := htables.documents_lt
  have hentries : tables.words.documents.entries = tables.documents.entries :=
    tables.documents.entries_words
  have hstep : ∀ entry ∈ tables.documents.entries, ∀ index : WordIndex,
      ((Guarded.document heaps.words entry.1 entry.2).outcome >>= fun document =>
        index.addDocument (entry.1, document)) =
        index.addDocument (entry.1, DocumentInfo.ofRow heaps entry.1 entry.2) := by
    intro entry hentry index
    rw [(Guarded.gives_document htables hblobs hentry).outcome_eq]
    rfl
  have hlength : (documentResults tables heaps).length < Word.limit := by
    rw [documentResults, List.length_map, tables.documents.length_entries]
    exact Nat.lt_trans hcount (by decide)
  rw [addDocuments, hentries, foldlM_eq hstep]
  refine (@foldlM_addDocument _ empty ?_).trans ?_
  · rwa [empty, Nat.zero_add]
  · simp only [empty, Nat.zero_add, List.nil_append]
    rfl

theorem addMethods_eq (htables : tables.Narrow) (hblobs : heaps.blobs.size < Word.limit)
    {index : WordIndex} (hindex : index.skippedMethods = 0) :
    addMethods tables.words heaps.words (scopes tables heaps) index = some { index with
      slots := (successes (methodResults tables heaps)).flatten.foldl addPart index.slots
      skippedMethods := (DocumentIndex.ofTables tables heaps).skippedMethods
      log := index.log ++ (failures (methodResults tables heaps)).map methodWarning } := by
  have hcount := htables.methods_lt
  have hentries : tables.words.methods.entries = tables.methods.entries :=
    tables.methods.entries_words
  have hstep : ∀ entry ∈ tables.methods.entries, ∀ index : WordIndex,
      ((Guarded.methodParts tables.words heaps.words entry.1
        (((scopes tables heaps).filter fun scope => scope.1 = Word.narrow entry.1).map
          Prod.snd)).outcome >>= fun parts => index.addMethod (entry.1, parts)) =
        index.addMethod (entry.1, methodOfRow tables heaps entry.1 entry.2
          (scopesNaming tables heaps entry.1)) := by
    intro entry hentry index
    have hnumber := (Rows.mem_entries hentry).2
    rw [Word.narrow_of_lt (by omega),
      (Guarded.gives_methodParts htables hblobs hentry _).outcome_eq]
    rfl
  have hlength : (methodResults tables heaps).length < Word.limit := by
    rw [methodResults, List.length_map, tables.methods.length_entries]
    exact Nat.lt_trans hcount (by decide)
  rw [addMethods, hentries, foldlM_eq hstep, ← methodResults_eq]
  refine (foldlM_addMethod ?_).trans ?_
  · rwa [hindex, Nat.zero_add]
  · rw [hindex, Nat.zero_add]
    rfl

end

/-! ## What the slots hold in the end -/

/-- The document with the methods of the parts that have its number behind its own. -/
def withParts (parts : List (Nat × MethodInfo)) (number : Nat) (info : DocumentInfo) :
    DocumentInfo :=
  { info with
    methods := info.methods ++ (parts.filter fun part => part.1 = number).map Prod.snd }

theorem getElem?_foldl_addPart (parts : List (Nat × MethodInfo))
    (slots : Array (Option DocumentInfo)) (i : Nat) :
    (parts.foldl addPart slots)[i]? = slots[i]?.map fun slot => slot.map (withParts parts i) := by
  induction parts generalizing slots with
  | nil =>
      have hsame : withParts [] i = id := by
        funext info
        simp [withParts]
      simp [hsame]
  | cons part parts ih =>
      rw [List.foldl_cons, ih, addPart, Array.getElem?_modify]
      by_cases hpart : part.1 = i
      · rw [if_pos hpart, Option.map_map]
        refine Option.map_congr fun slot _ => ?_
        rw [Function.comp_apply, Option.map_map]
        refine Option.map_congr fun info _ => ?_
        simp [withParts, hpart]
      · rw [if_neg hpart]
        refine Option.map_congr fun slot _ => Option.map_congr fun info _ => ?_
        simp [withParts, hpart]

theorem toList_slots (tables : Tables) (heaps : Heaps) (parts : List (Nat × MethodInfo)) :
    (parts.foldl addPart (#[none] ++
      ((documentResults tables heaps).map fun result => result.2.toOption).toArray)).toList =
      none :: (documentResults tables heaps).map fun result =>
        result.2.toOption.map (withParts parts result.1) := by
  refine List.ext_getElem? fun i => ?_
  rw [Array.getElem?_toList, getElem?_foldl_addPart]
  cases i with
  | zero => simp
  | succ place =>
      rw [Array.getElem?_append_right (Nat.le_add_left 1 place), List.getElem?_cons_succ]
      simp only [List.size_toArray, List.length_singleton, Nat.add_sub_cancel,
        List.getElem?_toArray, List.getElem?_map, documentResults, Rows.getElem?_entries,
        Option.map_map]
      rfl

theorem withParts_of_ofRow {heaps : Heaps} {number : Nat} {row : DocumentRow} {info : DocumentInfo}
    (hinfo : DocumentInfo.ofRow heaps number row = .ok info) (parts : List (Nat × MethodInfo)) :
    withParts parts number info =
      { info with methods := (parts.filter fun part => part.1 = info.document).map Prod.snd } := by
  obtain ⟨path, -, hrest⟩ := Except.bind_eq_ok hinfo
  obtain ⟨language, -, hrest⟩ := Except.bind_eq_ok hrest
  obtain ⟨algorithm, -, hrest⟩ := Except.bind_eq_ok hrest
  obtain ⟨hash, -, hlast⟩ := Except.bind_eq_ok hrest
  cases hlast
  rfl

theorem documents_slots (tables : Tables) (heaps : Heaps) :
    ((successes (methodResults tables heaps)).flatten.foldl addPart
        (#[none] ++ ((documentResults tables heaps).map fun result =>
          result.2.toOption).toArray)).toList.filterMap id =
      (DocumentIndex.ofTables tables heaps).documents := by
  have hsuccesses : successes (documentResults tables heaps) =
      tables.documents.entries.filterMap fun entry =>
        (DocumentInfo.ofRow heaps entry.1 entry.2).toOption :=
    successes_map tables.documents.entries fun entry => DocumentInfo.ofRow heaps entry.1 entry.2
  rw [toList_slots, documents_ofTables, hsuccesses, List.map_filterMap,
    List.filterMap_cons_none rfl, List.filterMap_map, documentResults, List.filterMap_map]
  refine List.filterMap_congr fun entry _ => ?_
  dsimp only [Function.comp_apply]
  cases hread : DocumentInfo.ofRow heaps entry.1 entry.2 with
  | error error => rfl
  | ok info => exact congrArg some (withParts_of_ofRow hread _)

/-- The machine puts the tables together without a crash, and what it ends with is their index. -/
theorem exists_ofTables {tables : Tables} {heaps : Heaps} (htables : tables.Narrow)
    (hblobs : heaps.blobs.size < Word.limit) :
    ∃ index, ofTables tables.words heaps.words = some index ∧
      index.documents = (DocumentIndex.ofTables tables heaps).documents ∧
      index.skippedDocuments = (DocumentIndex.ofTables tables heaps).skippedDocuments ∧
      index.skippedMethods = (DocumentIndex.ofTables tables heaps).skippedMethods ∧
      index.log = (DocumentIndex.ofTables tables heaps).log := by
  have hcount : tables.words.documents.count? = some tables.documents.count :=
    tables.documents.count?_words
  have hplaces : Word.add? tables.documents.count 1 = some (tables.documents.count + 1) := by
    have hdocuments := htables.documents_lt
    exact Word.add?_of_lt (by simp only [Word.limit]; omega)
  rw [ofTables, hcount]
  simp only [Option.bind_eq_bind, Option.bind_some, hplaces, addDocuments_eq htables hblobs,
    Guarded.scopes_eq htables hblobs]
  rw [addMethods_eq htables hblobs rfl]
  exact ⟨_, rfl, documents_slots tables heaps, rfl, rfl, rfl⟩

end WordIndex

end PortablePdb
