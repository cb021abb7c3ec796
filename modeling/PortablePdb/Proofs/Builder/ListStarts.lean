import PortablePdb.Proofs.Builder.Parse

/-!
# Starts of lists read back

A scope stores where its lists start, which is behind the last row that is there already.  The
columns for these starts are as wide as the final number of rows asks for, although a start can be
one more than that number: a scope that is added after the last local starts behind all of them.
No start is further out, so the only start that is lost is that behind 65535 rows, which asks for a
third byte where two were counted.
-/

namespace PortablePdb

/-! ## What additions leave alone -/

/-- What an addition of anything but a scope does for the scopes. -/
structure Builder.Extends (builder next : Builder) : Prop where
  settings : builder.SettingsFit → next.SettingsFit
  scopes : next.scopes = builder.scopes
  localVariables_le : builder.localVariables.size ≤ next.localVariables.size
  constants_le : builder.constants.size ≤ next.constants.size

namespace Builder

variable {builder next : Builder}

theorem Extends.refl (builder : Builder) : builder.Extends builder :=
  ⟨id, rfl, Nat.le_refl _, Nat.le_refl _⟩

theorem Extends.trans {last : Builder} (hfirst : builder.Extends next)
    (hsecond : next.Extends last) : builder.Extends last where
  settings := hsecond.settings ∘ hfirst.settings
  scopes := hsecond.scopes.trans hfirst.scopes
  localVariables_le := Nat.le_trans hfirst.localVariables_le hsecond.localVariables_le
  constants_le := Nat.le_trans hfirst.constants_le hsecond.constants_le

theorem extends_appendStrings (builder : Builder) (added : ByteArray) :
    builder.Extends (builder.appendStrings added) :=
  { Extends.refl builder with
    settings := fun hsettings =>
      { hsettings with sound := sound_appendStrings hsettings.sound added } }

theorem extends_appendBlobs (builder : Builder) (added : ByteArray) :
    builder.Extends (builder.appendBlobs added) :=
  { Extends.refl builder with
    settings := fun hsettings =>
      { hsettings with sound := sound_appendBlobs hsettings.sound added } }

theorem extends_appendGuids (builder : Builder) {added : ByteArray} (hadded : added.size = 16) :
    builder.Extends (builder.appendGuids added) :=
  { Extends.refl builder with
    settings := fun hsettings =>
      { hsettings with sound := sound_appendGuids hsettings.sound hadded } }

end Builder

namespace Building

variable {α β : Type}

/-- Wherever the action succeeds, it only extends the builder. -/
def Extending (action : Building α) : Prop :=
  ∀ builder next value, action builder = .ok (value, next) → builder.Extends next

theorem Extending.pure (value : α) : Extending (Pure.pure value) := by
  intro builder next found hrun
  cases hrun
  exact Builder.Extends.refl builder

theorem Extending.bind {first : Building α} {second : α → Building β} (hfirst : Extending first)
    (hsecond : ∀ value, Extending (second value)) : Extending (first >>= second) := by
  intro builder next found hrun
  obtain ⟨value, middle, hvalue, hrest⟩ := bind_eq_ok hrun
  exact (hfirst builder middle value hvalue).trans (hsecond value middle next found hrest)

theorem Extending.mapM {action : α → Building β} (haction : ∀ value, Extending (action value)) :
    (values : List α) → Extending (values.mapM action)
  | [] => .pure []
  | value :: values => by
      rw [List.mapM_cons]
      exact (haction value).bind fun _ => (Extending.mapM haction values).bind fun _ => .pure _

theorem Extending.forM {action : α → Building Unit} (haction : ∀ value, Extending (action value)) :
    (values : List α) → Extending (values.forM action)
  | [] => .pure ()
  | value :: values => (haction value).bind fun _ => Extending.forM haction values

theorem extending_liftM (result : Except SequencePoint.EncodeError α) :
    Extending (liftM result : Building α) := by
  intro builder next value hrun
  obtain ⟨-, rfl⟩ := liftM_eq_ok hrun
  exact Builder.Extends.refl next

/-! Every addition but that of a scope is such an action. -/

theorem extending_addString (text : String) : Extending (addString text) := by
  intro builder next offset hadd
  obtain ⟨added, rfl, -⟩ := addString_spec hadd
  exact Builder.extends_appendStrings builder added

theorem extending_addBlob (blob : ByteArray) : Extending (addBlob blob) := by
  intro builder next offset hadd
  obtain ⟨added, rfl, -⟩ := addBlob_spec hadd
  exact Builder.extends_appendBlobs builder added

theorem extending_addGuid (guid : Guid) : Extending (addGuid guid) := by
  intro builder next index hadd
  obtain ⟨added, rfl, hsize, -⟩ := addGuid_spec hadd
  exact Builder.extends_appendGuids builder hsize

theorem extending_addNamePart (part : List Char) : Extending (addNamePart part) := by
  cases part with
  | nil => exact (Extending.pure 0).bind fun _ => extending_liftM _
  | cons c rest => exact (extending_addBlob _).bind fun _ => extending_liftM _

theorem extending_addDocumentName (path : String) : Extending (addDocumentName path) :=
  (Extending.mapM extending_addNamePart _).bind fun _ => extending_addBlob _

theorem extending_pushDocument (row : DocumentRow) : Extending (pushDocument row) := by
  intro builder next number hpush
  obtain rfl := pushDocument_spec hpush
  exact { Builder.Extends.refl builder with settings := fun hsettings => { hsettings with } }

theorem extending_addDocument (path : String) (language : Guid) :
    Extending (addDocument path language) :=
  (extending_addDocumentName path).bind fun _ =>
    (extending_addGuid language).bind fun _ => extending_pushDocument _

theorem extending_addDocumentWithHash (path : String) (language algorithm : Guid)
    (hash : ByteArray) : Extending (addDocumentWithHash path language algorithm hash) :=
  (extending_addDocumentName path).bind fun _ =>
    (extending_addGuid algorithm).bind fun _ =>
      (extending_addBlob hash).bind fun _ =>
        (extending_addGuid language).bind fun _ => extending_pushDocument _

theorem extending_pushMethod (row : MethodRow) :
    Extending (modifyGet fun builder =>
      (builder.methods.size + 1, { builder with methods := builder.methods.push row })) := by
  intro builder next number hpush
  cases hpush
  exact { Builder.Extends.refl builder with settings := fun hsettings => { hsettings with } }

theorem extending_addMethodBlob (document : Nat) (blob : Option ByteArray) :
    Extending (addMethodBlob document blob) := by
  cases blob with
  | none => exact (Extending.pure 0).bind fun _ => extending_pushMethod _
  | some blob => exact (extending_addBlob blob).bind fun _ => extending_pushMethod _

theorem extending_addMethod (document : Nat) (marks : List SequencePoint.Mark) :
    Extending (addMethod document marks) := by
  cases marks with
  | nil => exact extending_addMethodBlob document none
  | cons mark marks => exact (extending_liftM _).bind fun _ => extending_addMethodBlob document _

theorem extending_addVariable (declaration : LocalDeclaration) :
    Extending (addVariable declaration) := by
  refine (extending_addString declaration.name).bind fun name => ?_
  intro builder next value hpush
  cases hpush
  exact { Builder.Extends.refl builder with
    settings := fun hsettings => { hsettings with }
    localVariables_le := by simp }

theorem extending_addConstant (constant : String × ByteArray) :
    Extending (addConstant constant) := by
  refine (extending_addString constant.1).bind fun name =>
    (extending_addBlob constant.2).bind fun signature => ?_
  intro builder next value hpush
  cases hpush
  exact { Builder.Extends.refl builder with
    settings := fun hsettings => { hsettings with }
    constants_le := by simp }

end Building

/-! ## Starts while building -/

/-- Documents, methods and scopes may be anything, and what is set has to fit into its field. -/
def BuildStep.SettingFits : BuildStep → Prop
  | document _ | method _ | scope _ | withoutPdbStream => True
  | pdbId id entryPoint => id.size = 20 ∧ entryPoint < Bytes.limit 4
  | referencedRows table rows => table < tableLimit ∧ rows < Bytes.limit 4
  | extraRows table rows => 0x35 ≤ table ∧ table ≤ 0x37 ∧ rows < Bytes.limit 4

/-- No list of a scope starts further out than behind the last row. -/
structure Builder.Paced (builder : Builder) : Prop where
  settings : builder.SettingsFit
  variableList_le : ∀ row ∈ builder.scopes.toList,
    row.variableList ≤ builder.localVariables.size + 1
  constantList_le : ∀ row ∈ builder.scopes.toList, row.constantList ≤ builder.constants.size + 1

namespace Builder

variable {builder next : Builder}

theorem empty_paced : Builder.empty.Paced where
  settings := {
    sound := empty_holds.sound
    identity := by decide
    referencedRows := by simp [Builder.empty]
    extraRows := by simp [Builder.empty]
    extraStreams := rfl }
  variableList_le := by simp [Builder.empty]
  constantList_le := by simp [Builder.empty]

theorem Paced.extend (hpaced : builder.Paced) (hextends : builder.Extends next) : next.Paced where
  settings := hextends.settings hpaced.settings
  variableList_le row hrow := by
    rw [hextends.scopes] at hrow
    exact Nat.le_trans (hpaced.variableList_le row hrow)
      (Nat.succ_le_succ hextends.localVariables_le)
  constantList_le row hrow := by
    rw [hextends.scopes] at hrow
    exact Nat.le_trans (hpaced.constantList_le row hrow) (Nat.succ_le_succ hextends.constants_le)

theorem Paced.addScope {method startOffset length number : Nat}
    {localVariables : List LocalDeclaration} {constants : List (String × ByteArray)}
    (hpaced : builder.Paced)
    (hadd : Building.addScope method startOffset length localVariables constants builder =
      .ok (number, next)) : next.Paced := by
  obtain ⟨_, _, hget, hrest⟩ := Building.bind_eq_ok hadd
  cases hget
  obtain ⟨_, middle, hvariables, hrest⟩ := Building.bind_eq_ok hrest
  obtain ⟨_, last, hconstants, hpush⟩ := Building.bind_eq_ok hrest
  cases hpush
  have hextends : builder.Extends last :=
    (Building.Extending.forM Building.extending_addVariable _ _ _ _ hvariables).trans
      (Building.Extending.forM Building.extending_addConstant _ _ _ _ hconstants)
  have hlast := hpaced.extend hextends
  -- The new scope starts behind the rows that were there before its own locals.
  constructor
  · exact { hlast.settings with }
  · intro row hrow
    simp only [Array.toList_push, List.mem_append, List.mem_singleton] at hrow
    rcases hrow with hold | rfl
    · exact hlast.variableList_le row hold
    · exact Nat.succ_le_succ hextends.localVariables_le
  · intro row hrow
    simp only [Array.toList_push, List.mem_append, List.mem_singleton] at hrow
    rcases hrow with hold | rfl
    · exact hlast.constantList_le row hold
    · exact Nat.succ_le_succ hextends.constants_le

theorem Paced.perform {step : BuildStep} (hpaced : builder.Paced) (hfits : step.SettingFits)
    (hperform : step.perform builder = .ok ((), next)) : next.Paced := by
  have hsettings := hpaced.settings
  cases step with
  | document document =>
      obtain ⟨path, language, hash⟩ := document
      cases hash with
      | none =>
          obtain ⟨_, middle, hadd, hlast⟩ := Building.bind_eq_ok hperform
          cases hlast
          exact hpaced.extend (Building.extending_addDocument _ _ _ _ _ hadd)
      | some hash =>
          obtain ⟨_, middle, hadd, hlast⟩ := Building.bind_eq_ok hperform
          cases hlast
          exact hpaced.extend (Building.extending_addDocumentWithHash _ _ _ _ _ _ _ hadd)
  | method method =>
      obtain ⟨_, middle, hadd, hlast⟩ := Building.bind_eq_ok hperform
      cases hlast
      exact hpaced.extend (Building.extending_addMethod _ _ _ _ _ hadd)
  | scope scope =>
      obtain ⟨_, middle, hadd, hlast⟩ := Building.bind_eq_ok hperform
      cases hlast
      exact hpaced.addScope hadd
  | pdbId id entryPoint =>
      cases hperform
      exact { hpaced with settings := { hsettings with identity := hfits } }
  | referencedRows table rows =>
      cases hperform
      refine { hpaced with settings := { hsettings with referencedRows := ?_ } }
      exact List.forall_mem_append.2 ⟨hsettings.referencedRows, List.forall_mem_singleton.2 hfits⟩
  | extraRows table rows =>
      cases hperform
      refine { hpaced with settings := { hsettings with extraRows := ?_ } }
      exact List.forall_mem_append.2 ⟨hsettings.extraRows, List.forall_mem_singleton.2 hfits⟩
  | withoutPdbStream =>
      cases hperform
      exact { hpaced with settings := { hsettings with } }

theorem Paced.forM {steps : List BuildStep} (hpaced : builder.Paced)
    (hfits : ∀ step ∈ steps, step.SettingFits)
    (hrun : steps.forM BuildStep.perform builder = .ok ((), next)) : next.Paced := by
  induction steps generalizing builder with
  | nil =>
      cases hrun
      exact hpaced
  | cons step steps ih =>
      obtain ⟨_, middle, hperform, hrest⟩ := Building.bind_eq_ok hrun
      exact ih (hpaced.perform (hfits step List.mem_cons_self) hperform)
        (fun other hother => hfits other (List.mem_cons_of_mem step hother)) hrest

theorem paced_ofSteps {steps : List BuildStep} (hfits : ∀ step ∈ steps, step.SettingFits)
    (hbuilt : ofSteps steps = .ok builder) : builder.Paced :=
  empty_paced.forM hfits (run_of_ofSteps hbuilt)

end Builder

/-! ## A scope behind many locals -/

namespace Building

theorem bind_ok {α β : Type} {first : Building α} {second : α → Building β}
    {builder middle : Builder} {value : α} (hfirst : first builder = .ok (value, middle)) :
    (first >>= second) builder = second value middle := by
  change (first builder >>= fun found => second found.1 found.2) = _
  rw [hfirst]
  rfl

/-- A scope without constants is added after its variables. -/
theorem perform_scope_ok {method startOffset length : Nat} {slots : List LocalDeclaration}
    {builder middle : Builder} (hrun : slots.forM addVariable builder = .ok ((), middle)) :
    (BuildStep.scope ⟨method, startOffset, length, slots, []⟩).perform builder =
      .ok ((), { middle with
        scopes := middle.scopes.push {
          method := method
          importScope := 0
          variableList := builder.localVariables.size + 1
          constantList := builder.constants.size + 1
          startOffset := startOffset
          length := length } }) := by
  have hget : (get : Building Builder) builder = .ok (builder, builder) := rfl
  exact bind_ok ((bind_ok hget).trans (bind_ok hrun))

/-- Adding variables never fails. -/
theorem forM_addVariable_ok (declaration : LocalDeclaration) (count : Nat) (builder : Builder) :
    ∃ added rows, (List.replicate count declaration).forM addVariable builder =
        .ok ((), (builder.appendStrings added).appendVariables rows) ∧
      added.size = count * (declaration.name.utf8ByteSize + 1) ∧ rows.length = count := by
  induction count generalizing builder with
  | zero =>
      have hsame : (builder.appendStrings ByteArray.empty).appendVariables [] = builder := by
        simp [Builder.appendStrings, Builder.appendVariables]
      refine ⟨ByteArray.empty, [], ?_, by simp, rfl⟩
      rw [hsame]
      rfl
  | succ count ih =>
      let text := declaration.name.toUTF8 ++ [0].toByteArray
      let row : VariableRow :=
        { attributes := declaration.attributes, index := declaration.index,
          name := builder.strings.size }
      have hfirst : addVariable declaration builder =
          .ok ((), (builder.appendStrings text).appendVariables [row]) := by
        simp only [Builder.appendStrings, Builder.appendVariables, text, ← ByteArray.append_assoc,
          ← Array.push_eq_append]
        rfl
      obtain ⟨added, rows, hrest, hadded, hrows⟩ :=
        ih ((builder.appendStrings text).appendVariables [row])
      refine ⟨text ++ added, row :: rows, ?_, ?_, by rw [List.length_cons, hrows]⟩
      · refine (bind_ok hfirst).trans (hrest.trans ?_)
        simp [Builder.appendStrings, Builder.appendVariables, ByteArray.append_assoc]
      · have htext : text.size = declaration.name.utf8ByteSize + 1 := by simp [text]
        rw [ByteArray.size_append, hadded, htext, Nat.succ_mul, Nat.add_comm]

end Building

namespace Builder

/-- Two methods, of which the first has a scope with so many nameless locals, and the second then
has one without locals. -/
def crowdedSteps (locals : Nat) : List BuildStep := [
  .method ⟨0, []⟩,
  .method ⟨0, []⟩,
  .scope ⟨1, 0, 0, List.replicate locals ⟨"", 0, 0⟩, []⟩,
  .scope ⟨2, 0, 0, [], []⟩]

theorem settingFits_crowdedSteps (locals : Nat) :
    ∀ step ∈ crowdedSteps locals, step.SettingFits := by
  simp [crowdedSteps, BuildStep.SettingFits]

/-- What the steps build before the scopes. -/
def twoMethods : Builder :=
  { Builder.empty with methods := #[⟨0, 0⟩, ⟨0, 0⟩] }

/-- What they build with these names and rows of the locals. -/
def crowded (added : ByteArray) (rows : List VariableRow) : Builder :=
  { (twoMethods.appendStrings added).appendVariables rows with
    scopes := #[⟨1, 0, 1, 1, 0, 0⟩,
      ⟨2, 0, (twoMethods.localVariables ++ rows.toArray).size + 1, 1, 0, 0⟩] }

theorem exists_ofSteps_crowdedSteps (locals : Nat) :
    ∃ added rows, ofSteps (crowdedSteps locals) = .ok (crowded added rows) ∧
      added.size = locals ∧ rows.length = locals := by
  obtain ⟨added, rows, hrun, hadded, hrows⟩ :=
    Building.forM_addVariable_ok ⟨"", 0, 0⟩ locals twoMethods
  refine ⟨added, rows, ?_, by simpa using hadded, hrows⟩
  have hsteps : (crowdedSteps locals).forM BuildStep.perform Builder.empty =
      .ok ((), crowded added rows) := by
    change ((BuildStep.scope ⟨1, 0, 0, List.replicate locals ⟨"", 0, 0⟩, []⟩).perform >>=
      fun _ => [BuildStep.scope ⟨2, 0, 0, [], []⟩].forM BuildStep.perform) twoMethods = _
    rw [Building.bind_ok (Building.perform_scope_ok hrun)]
    rfl
  rw [ofSteps, hsteps]
  rfl

theorem size_localVariables_crowded (added : ByteArray) (rows : List VariableRow) :
    (crowded added rows).localVariables.size = rows.length := by
  simp [crowded, appendVariables, appendStrings, twoMethods, Builder.empty]

theorem size_strings_crowded (added : ByteArray) (rows : List VariableRow) :
    (crowded added rows).strings.size = added.size + 1 := by
  simp [crowded, appendVariables, appendStrings, twoMethods, Builder.empty, Nat.add_comm]

theorem size_image_crowded_lt {added : ByteArray} {rows : List VariableRow}
    (hadded : added.size < 0x1000000) (hrows : rows.length < 0x1000000) :
    (crowded added rows).image.size < Bytes.limit 4 := by
  have hextra : (crowded added rows).extraStreams = [] := rfl
  have hsize := size_image_le hextra
  have htables := (crowded added rows).length_tableStream_le_rows
  have hsettings : Builder.empty.pdbId.size = 20 ∧ Builder.empty.guids.size = 0 ∧
      Builder.empty.blobs.size = 1 := by decide
  rw [size_strings_crowded] at hsize
  rw [size_localVariables_crowded] at htables
  change _ ≤ 1024 + Builder.empty.pdbId.size + _ + Builder.empty.guids.size +
    Builder.empty.blobs.size + _ at hsize
  change _ ≤ 280 + 16 * 0 + 8 * 2 + 24 * 2 + 12 * _ + 8 * 0 at htables
  simp only [Bytes.limit]
  omega

end Builder

/-! ## Starts read back -/

/-- A start as it comes back from a column for the rows of a table with so many rows. -/
def startReadBack (rows start : Nat) : Nat :=
  if rows = 0xFFFF ∧ start = 0x10000 then 0 else start

theorem mod_limit_eq_startReadBack {rows start : Nat} (hstart : start ≤ rows + 1)
    (hrows : rows + 1 < Bytes.limit 4) :
    start % Bytes.limit (if 0xFFFF < rows then 4 else 2) = startReadBack rows start := by
  unfold startReadBack
  -- Only in a narrow column can the start behind the last row be too large.
  by_cases hwide : 0xFFFF < rows
  · rw [if_pos hwide, Nat.mod_eq_of_lt (Nat.lt_of_le_of_lt hstart hrows), if_neg (by omega)]
  · rw [if_neg hwide]
    simp only [Bytes.limit]
    by_cases hlost : rows = 0xFFFF ∧ start = 0x10000
    · rw [if_pos hlost, hlost.2]
    · rw [if_neg hlost, Nat.mod_eq_of_lt (by omega)]

namespace Builder

variable {builder : Builder}

theorem widths_table_added (hcounts : builder.CountsFit) {entry : TableId × Nat}
    (hentry : entry ∈ builder.addedRowCounts) :
    builder.widths.table entry.1 = if 0xFFFF < entry.2 then 4 else 2 := by
  have hadded : entry.1 ≠ .methodDef := by
    intro hmethodDef
    have hlow := (number_of_mem_addedRowCounts hentry).1
    rw [hmethodDef] at hlow
    exact absurd hlow (by decide)
  simp only [widths, hadded, ne_eq, not_false_eq_true, true_and,
    get_rowCounts_added hcounts hentry]

theorem Paced.stored_starts (hpaced : builder.Paced) (hbounded : builder.Bounded)
    {row : ScopeRow} (hrow : row ∈ builder.scopes.toList) :
    (TableRow.stored builder.widths row).variableList =
        startReadBack builder.localVariables.size row.variableList ∧
      (TableRow.stored builder.widths row).constantList =
        startReadBack builder.constants.size row.constantList := by
  have hslots : (TableId.localVariable, builder.localVariables.size) ∈ builder.addedRowCounts := by
    simp [addedRowCounts]
  have hconstants : (TableId.localConstant, builder.constants.size) ∈ builder.addedRowCounts := by
    simp [addedRowCounts]
  constructor
  · change row.variableList % Bytes.limit (builder.widths.table .localVariable) = _
    rw [widths_table_added hbounded.countsFit hslots]
    exact mod_limit_eq_startReadBack (hpaced.variableList_le row hrow)
      (hbounded.added_succ_lt hslots)
  · change row.constantList % Bytes.limit (builder.widths.table .localConstant) = _
    rw [widths_table_added hbounded.countsFit hconstants]
    exact mod_limit_eq_startReadBack (hpaced.constantList_le row hrow)
      (hbounded.added_succ_lt hconstants)

theorem get?_scopes_storedFile (hsound : builder.heapBytes.Sound) {number : Nat} {row : ScopeRow}
    (hrow : (Rows.mk builder.scopes).get? number = some row) :
    (builder.storedFile hsound).tables.scopes.get? number =
      some (TableRow.stored builder.widths row) := by
  change (Rows.mk (builder.scopes.map (TableRow.stored builder.widths))).get? number = _
  unfold Rows.get? at hrow ⊢
  split at hrow
  · cases hrow
  · rw [if_neg ‹_›, Array.getElem?_map, hrow]
    rfl

/-- The starts of all lists come back from the image as they were added, but for that behind
exactly 65535 rows, which comes back as zero. -/
theorem parse_image_listStarts {steps : List BuildStep}
    (hfits : ∀ step ∈ steps, step.SettingFits) (hbuilt : ofSteps steps = .ok builder)
    (hsize : builder.image.size < Bytes.limit 4) :
    ∃ file, SymbolFile.parse builder.image = .ok file ∧
      List.Forall₂ (fun added row =>
          row.variableList = startReadBack builder.localVariables.size added.variableList ∧
            row.constantList = startReadBack builder.constants.size added.constantList)
        builder.scopes.toList file.tables.scopes.toArray.toList := by
  have hpaced := paced_ofSteps hfits hbuilt
  refine ⟨builder.storedFile hpaced.settings.sound, hpaced.settings.parse_image hsize, ?_⟩
  have hscopes : (builder.storedFile hpaced.settings.sound).tables.scopes.toArray.toList =
      builder.scopes.toList.map (TableRow.stored builder.widths) := Array.toList_map
  rw [hscopes, List.forall₂_map_right_iff, List.forall₂_same]
  exact fun row hrow => hpaced.stored_starts (hpaced.settings.bounded hsize) hrow

theorem parse_image_listStarts_threeLocals :
    ∃ builder file, ofSteps (crowdedSteps 3) = .ok builder ∧
      SymbolFile.parse builder.image = .ok file ∧
      file.tables.scopes.toArray.toList.map ScopeRow.variableList = [1, 4] := by
  obtain ⟨added, rows, hbuilt, hadded, hrows⟩ := exists_ofSteps_crowdedSteps 3
  obtain ⟨file, hfile, hstarts⟩ := parse_image_listStarts (settingFits_crowdedSteps 3) hbuilt
    (size_image_crowded_lt (hadded.trans_lt (by decide)) (hrows.trans_lt (by decide)))
  refine ⟨_, file, hbuilt, hfile, ?_⟩
  have hscopes : (crowded added rows).scopes.toList =
      [⟨1, 0, 1, 1, 0, 0⟩, ⟨2, 0, (crowded added rows).localVariables.size + 1, 1, 0, 0⟩] := rfl
  rw [hscopes, size_localVariables_crowded, hrows] at hstarts
  generalize file.tables.scopes.toArray.toList = found at hstarts ⊢
  cases hstarts with
  | cons hfirst hrest =>
      cases hrest with
      | cons hlast hnil =>
          cases hnil
          rw [List.map_cons, hfirst.1, List.map_singleton, hlast.1]
          rfl

/-- Behind 65535 locals a scope starts at 65536, and at zero in the file. -/
theorem exists_start_lost :
    ∃ builder file added row, ofSteps (crowdedSteps 0xFFFF) = .ok builder ∧
      builder.strings.size < 0x20000000 ∧ builder.blobs.size < 0x20000000 ∧
      builder.guids.size < 0x20000000 ∧
      SymbolFile.parse builder.image = .ok file ∧
      (Rows.mk builder.scopes).get? 2 = some added ∧ file.tables.scopes.get? 2 = some row ∧
      added.variableList = 0x10000 ∧ row.variableList = 0 := by
  obtain ⟨added, rows, hbuilt, hadded, hrows⟩ := exists_ofSteps_crowdedSteps 0xFFFF
  have hpaced : (crowded added rows).Paced :=
    paced_ofSteps (settingFits_crowdedSteps 0xFFFF) hbuilt
  have hsize := size_image_crowded_lt (hadded.trans_lt (by decide)) (hrows.trans_lt (by decide))
  let last : ScopeRow := ⟨2, 0, (crowded added rows).localVariables.size + 1, 1, 0, 0⟩
  have hstart : last.variableList = 0x10000 := by
    change (crowded added rows).localVariables.size + 1 = 0x10000
    rw [size_localVariables_crowded, hrows]
  have hmem : last ∈ (crowded added rows).scopes.toList := by
    simp [crowded, last, appendVariables, appendStrings]
  have hread := (hpaced.stored_starts (hpaced.settings.bounded hsize) hmem).1
  rw [hstart, size_localVariables_crowded, hrows] at hread
  have hlast : (Rows.mk (crowded added rows).scopes).get? 2 = some last := rfl
  refine ⟨_, _, last, _, hbuilt, ?_, ?_, ?_, hpaced.settings.parse_image hsize, hlast,
    get?_scopes_storedFile _ hlast, hstart, hread⟩
  · rw [size_strings_crowded, hadded]
    decide
  · change Builder.empty.blobs.size < _
    decide
  · change Builder.empty.guids.size < _
    decide

end Builder

end PortablePdb
