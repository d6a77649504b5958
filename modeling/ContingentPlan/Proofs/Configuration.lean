import ContingentPlan.Configuration
import ContingentPlan.Proofs.AtomicWrite
import ContingentPlan.Proofs.Document
import ContingentPlan.Proofs.Toml.RoundTrip

/-!
Configurations as texts. A text is read as the settings that it states over the defaults, and what is
stored of a configuration states all of it. What a text states is what a library for TOML makes of it.
-/

namespace ContingentPlan

structure Settings where
  dataPath : Option String := none
  planFile : Option String := none
  programPath : Option String := none
  freeActionId : Option Nat := none
  exportPath : Option String := none
deriving DecidableEq, Repr

namespace Settings

def overriding (settings : Settings) (base : Configuration) : Configuration where
  dataPath := (settings.dataPath.map OsText.ofText).getD base.dataPath
  planFile := settings.planFile.getD base.planFile
  programPath := (settings.programPath.map OsText.ofText).getD base.programPath
  freeActionId := settings.freeActionId.getD base.freeActionId
  exportPath := (settings.exportPath.map OsText.ofText).or base.exportPath

/-- The entries hold these settings under their names, and have no others of these names. -/
structure Recorded (settings : Settings) (entries : List (String × Document)) : Prop where
  dataPath : entries.lookup "data_path" = settings.dataPath.map .text
  planFile : entries.lookup "plan_file" = settings.planFile.map .text
  programPath : entries.lookup "strl_file_path" = settings.programPath.map .text
  freeActionId : entries.lookup "free_action_id" = settings.freeActionId.map .ofId
  exportPath : entries.lookup "export_path" = settings.exportPath.map .text

/-- The text is well-formed and states these settings, besides others that have no meaning here. -/
def StatedBy (settings : Settings) (toml : Codec) (text : String) : Prop :=
  ∃ entries, toml.read text = .ok (.fields entries) ∧ settings.Recorded entries

theorem StatedBy.unique {settings others : Settings} {toml : Codec} {text : String}
    (stated : settings.StatedBy toml text) (again : others.StatedBy toml text) : settings = others := by
  obtain ⟨entries, read, data, file, program, id, path⟩ := stated
  obtain ⟨_, readToo, dataToo, fileToo, programToo, idToo, pathToo⟩ := again
  rw [read, Except.ok.injEq, Document.fields_inj] at readToo
  subst readToo
  have texts : Function.Injective Document.text := fun _ _ => Document.text.inj
  have ids : Function.Injective Document.ofId := fun _ _ same => Int.ofNat.inj (Document.integer.inj same)
  cases settings
  cases others
  simp only [mk.injEq]
  exact ⟨Option.map_injective texts (data.symm.trans dataToo),
    Option.map_injective texts (file.symm.trans fileToo),
    Option.map_injective texts (program.symm.trans programToo),
    Option.map_injective ids (id.symm.trans idToo),
    Option.map_injective texts (path.symm.trans pathToo)⟩

end Settings

namespace Configuration

section Reading

variable {α β : Type} {entries : List (String × Document)} {found : Option Document}
  {configuration : Configuration}

theorem setting?_eq_some_iff {read : Document → Option α} {write : β → Document} {make : β → α}
    (reads : ∀ document ∈ found, ∀ value,
      read document = some value ↔ ∃ own, document = write own ∧ value = make own)
    {default value : α} : setting? read default found = some value ↔
      ∃ stated : Option β, found = stated.map write ∧ value = (stated.map make).getD default := by
  cases found with
  | none =>
      rw [setting?, Option.some.injEq]
      constructor
      · rintro rfl
        exact ⟨none, rfl, rfl⟩
      · rintro ⟨_ | stated, absent, rfl⟩
        · rfl
        · cases absent
  | some document =>
      rw [setting?, reads document rfl]
      constructor
      · rintro ⟨own, rfl, rfl⟩
        exact ⟨some own, rfl, rfl⟩
      · rintro ⟨_ | stated, same, rfl⟩
        · cases same
        · exact ⟨stated, Option.some.inj same, rfl⟩

theorem text?_eq_some_iff (document : Document) (value : String) :
    document.text? = some value ↔ ∃ own, document = .text own ∧ value = own := by
  cases document <;> simp [Document.text?, eq_comm]

theorem path?_eq_some_iff (document : Document) (value : OsText) :
    path? document = some value ↔ ∃ own, document = .text own ∧ value = OsText.ofText own := by
  cases document <;> simp [path?, Document.text?, eq_comm]

theorem optionalPath?_eq_some_iff {document : Document} (notNull : document ≠ .null)
    (value : Option OsText) :
    optionalPath? document = some value ↔
      ∃ own, document = .text own ∧ value = some (OsText.ofText own) := by
  cases document <;> simp [optionalPath?, path?, Document.text?, eq_comm] at notNull ⊢

theorem id?_eq_some_iff {document : Document} (expressible : Toml.Expressible document) (value : Nat) :
    document.id? = some value ↔ ∃ own, document = .ofId own ∧ value = own := by
  cases document with
  | integer number =>
      have narrow := expressible.fits number rfl
      have wide : Int.pow 2 63 < Int.pow 2 64 := by decide
      rw [Document.id?, Option.ite_none_right_eq_some, Option.some.injEq]
      constructor
      · rintro ⟨⟨lower, -⟩, rfl⟩
        exact ⟨_, congrArg Document.integer (Int.toNat_of_nonneg lower).symm, rfl⟩
      · rintro ⟨own, same, rfl⟩
        obtain rfl := Document.integer.inj same
        exact ⟨⟨Int.natCast_nonneg value, Int.lt_trans narrow wide⟩, Int.toNat_natCast value⟩
  | _ => simp [Document.id?, Document.ofId]

theorem ofDocument?_eq_some_iff (distinct : (entries.map Prod.fst).Nodup)
    (expressible : ∀ entry ∈ entries, Toml.Expressible entry.2) :
    ofDocument? (.fields entries) = some configuration ↔
      ∃ settings : Settings, settings.Recorded entries ∧ configuration = settings.overriding {} := by
  have each {name : String} : ∀ document ∈ entries.lookup name, Toml.Expressible document := by
    intro document found
    obtain ⟨before, after, rfl, -⟩ := List.lookup_eq_some_iff.mp found
    exact expressible (name, document) (by simp)
  have texts {name : String} : ∀ document ∈ entries.lookup name, ∀ value,
      document.text? = some value ↔ ∃ own, document = .text own ∧ value = own :=
    fun document _ => text?_eq_some_iff document
  have paths {name : String} : ∀ document ∈ entries.lookup name, ∀ value,
      path? document = some value ↔ ∃ own, document = .text own ∧ value = OsText.ofText own :=
    fun document _ => path?_eq_some_iff document
  have ids {name : String} : ∀ document ∈ entries.lookup name, ∀ value,
      document.id? = some value ↔ ∃ own, document = .ofId own ∧ value = own :=
    fun document found => id?_eq_some_iff (each document found)
  have optionalPaths {name : String} : ∀ document ∈ entries.lookup name, ∀ value,
      optionalPath? document = some value ↔
        ∃ own, document = .text own ∧ value = some (OsText.ofText own) :=
    fun document found => optionalPath?_eq_some_iff (each document found).notNull
  simp only [ofDocument?, Document.fields?_eq_lookup distinct, List.map_cons, List.map_nil,
    Option.bind_eq_bind, Option.bind_some, Option.bind_eq_some_iff, setting?_eq_some_iff texts,
    setting?_eq_some_iff paths, setting?_eq_some_iff ids, setting?_eq_some_iff optionalPaths]
  constructor
  · rintro ⟨_, ⟨dataPath, data, rfl⟩, _, ⟨planFile, file, rfl⟩, _, ⟨programPath, program, rfl⟩,
      _, ⟨freeActionId, id, rfl⟩, _, ⟨exportPath, path, rfl⟩, ⟨⟩⟩
    refine ⟨{ dataPath, planFile, programPath, freeActionId, exportPath },
      ⟨data, file, program, id, path⟩, ?_⟩
    cases exportPath <;> simp [Settings.overriding]
  · rintro ⟨settings, ⟨data, file, program, id, path⟩, rfl⟩
    refine ⟨_, ⟨_, data, rfl⟩, _, ⟨_, file, rfl⟩, _, ⟨_, program, rfl⟩, _, ⟨_, id, rfl⟩, _,
      ⟨_, path, rfl⟩, ?_⟩
    cases exported : settings.exportPath <;> simp [Settings.overriding, exported]

theorem ofText_eq_ok_iff {toml : Codec} (documented : Toml.Documented toml) {path : OsText}
    {text : String} : ofText toml path text = .ok configuration ↔
      ∃ settings : Settings, settings.StatedBy toml text ∧ configuration = settings.overriding {} := by
  rw [ofText, Codec.readAs]
  cases read : toml.read text with
  | error reason => simp [Settings.StatedBy, read]
  | ok document =>
      obtain ⟨entries, rfl, distinct, expressible⟩ := documented.read text _ read
      have known : ofDocument? (.fields entries) = some configuration ↔ _ :=
        ofDocument?_eq_some_iff distinct expressible
      have stated (settings : Settings) :
          settings.StatedBy toml text ↔ settings.Recorded entries := by
        simp [Settings.StatedBy, read, Document.fields_inj]
      simp only [stated, ← known]
      cases ofDocument? (.fields entries) <;> simp

end Reading

section Writing

variable {toml : Codec} {configuration : Configuration} {document : Document} {text : String}

structure Unicode (configuration : Configuration) : Prop where
  dataPath : configuration.dataPath.text?.isSome
  programPath : configuration.programPath.text?.isSome
  exportPath : ∀ path ∈ configuration.exportPath, path.text?.isSome

def entriesOf (dataPath planFile programPath : String) (freeActionId : Nat)
    (exportPath : Option String) : List (String × Document) :=
  [("data_path", .text dataPath), ("plan_file", .text planFile), ("strl_file_path", .text programPath),
   ("free_action_id", .ofId freeActionId), ("export_path", (exportPath.map Document.text).getD .null)]

theorem exists_of_toDocument? (formed : configuration.toDocument? = some document) :
    ∃ dataPath programPath exportPath,
      document = .fields (entriesOf dataPath configuration.planFile programPath
        configuration.freeActionId exportPath) ∧
      configuration.dataPath = OsText.ofText dataPath ∧
      configuration.programPath = OsText.ofText programPath ∧
      configuration.exportPath = exportPath.map OsText.ofText := by
  simp only [toDocument?, Option.bind_eq_bind, Option.bind_eq_some_iff, Option.pure_def,
    Option.some.injEq] at formed
  obtain ⟨dataPath, data, programPath, program, exported, path, rfl⟩ := formed
  have known := (OsText.ofText_of_text? data).symm
  have knownToo := (OsText.ofText_of_text? program).symm
  cases given : configuration.exportPath with
  | none =>
      rw [given] at path
      cases path
      exact ⟨dataPath, programPath, none, rfl, known, knownToo, rfl⟩
  | some exportPath =>
      rw [given] at path
      obtain ⟨spelled, text, rfl⟩ := Option.map_eq_some_iff.mp path
      exact ⟨dataPath, programPath, some spelled, rfl, known, knownToo,
        congrArg some (OsText.ofText_of_text? text).symm⟩

theorem toDocument?_isSome_iff : configuration.toDocument?.isSome ↔ configuration.Unicode := by
  constructor
  · intro formed
    obtain ⟨document, formed⟩ := Option.isSome_iff_exists.mp formed
    obtain ⟨dataPath, programPath, exportPath, -, data, program, exported⟩ := exists_of_toDocument? formed
    refine ⟨by simp [data], by simp [program], ?_⟩
    rw [exported]
    intro path given
    obtain ⟨text, -, rfl⟩ := Option.map_eq_some_iff.mp given
    simp
  · rintro ⟨data, program, exported⟩
    obtain ⟨dataPath, data⟩ := Option.isSome_iff_exists.mp data
    obtain ⟨programPath, program⟩ := Option.isSome_iff_exists.mp program
    rw [toDocument?, data, program]
    cases given : configuration.exportPath with
    | none => rfl
    | some path =>
        obtain ⟨text, spelled⟩ := Option.isSome_iff_exists.mp (exported path given)
        simp [optionalText?, spelled]

variable (documented : Toml.Documented toml)
include documented

theorem exists_pretty (dataPath planFile programPath : String) {freeActionId : Nat}
    (exportPath : Option String) (fits : freeActionId < Nat.pow 2 63) :
    ∃ text, toml.pretty (.fields (entriesOf dataPath planFile programPath freeActionId exportPath)) =
        .ok text ∧
      toml.read text = .ok (.fields
        (Toml.stated (entriesOf dataPath planFile programPath freeActionId exportPath))) := by
  have exported : Toml.Writable ((exportPath.map Document.text).getD .null) := by
    cases exportPath with
    | none => exact .null
    | some path => exact .text path
  apply documented.pretty
  · simp [entriesOf]
  · simp only [entriesOf, List.forall_mem_cons, List.not_mem_nil, false_implies, implies_true, and_true,
      Toml.Writable.text, Toml.Writable.integer fits, exported]
    decide

/-- What is written of a configuration states settings that make it up, whatever the defaults are. -/
theorem exists_stated_of_toText (written : configuration.toText toml = .ok text) :
    ∃ settings : Settings, settings.StatedBy toml text ∧ configuration = settings.overriding {} := by
  unfold toText at written
  split at written
  · rename_i document formed
    obtain ⟨dataPath, programPath, exportPath, rfl, data, program, exported⟩ :=
      exists_of_toDocument? formed
    by_cases fits : configuration.freeActionId < Nat.pow 2 63
    · obtain ⟨_, prettied, read⟩ := exists_pretty documented dataPath configuration.planFile programPath
        exportPath fits
      cases written.symm.trans prettied
      refine ⟨⟨some dataPath, some configuration.planFile, some programPath,
        some configuration.freeActionId, exportPath⟩, ⟨_, read, ?_⟩, ?_⟩
      · cases exportPath <;> exact ⟨rfl, rfl, rfl, rfl, rfl⟩
      · cases configuration
        simp_all [Settings.overriding]
    · obtain ⟨reason, fails⟩ := documented.unwritable
        (entriesOf dataPath configuration.planFile programPath configuration.freeActionId exportPath)
        configuration.freeActionId (Nat.le_of_not_lt fits) (by simp [entriesOf])
      cases written.symm.trans fails
  · cases written

theorem toText_of_lt (fits : configuration.freeActionId < Nat.pow 2 63)
    (unicode : configuration.Unicode) : ∃ text, configuration.toText toml = .ok text := by
  obtain ⟨document, formed⟩ := Option.isSome_iff_exists.mp (toDocument?_isSome_iff.mpr unicode)
  obtain ⟨dataPath, programPath, exportPath, rfl, -⟩ := exists_of_toDocument? formed
  obtain ⟨text, prettied, -⟩ := exists_pretty documented dataPath configuration.planFile programPath
    exportPath fits
  rw [toText, formed]
  exact ⟨text, prettied⟩

theorem toText_of_le (large : Nat.pow 2 63 ≤ configuration.freeActionId) :
    ∃ reason, configuration.toText toml = .error reason := by
  unfold toText
  split
  · rename_i document formed
    obtain ⟨dataPath, programPath, exportPath, rfl, -⟩ := exists_of_toDocument? formed
    exact documented.unwritable _ _ large (by simp [entriesOf])
  · exact ⟨_, rfl⟩

end Writing

section Storing

variable {toml : Codec} {configuration : Configuration} {tree after : FileTree} {path : OsText}
  {system : FileTree.System}

theorem load_of_read {text : String} (read : tree.read path system = .ok text) :
    tree.load path (ofText toml path) system = ofText toml path text := by
  rw [FileTree.load, read]

theorem store_of_error {reason : String} (unwritten : configuration.toText toml = .error reason) :
    configuration.store toml tree path system =
      (tree, some (.malformedConfiguration path reason)) := by
  rw [store, unwritten]

variable (documented : Toml.Documented toml)
include documented

theorem load_eq_ok_iff : tree.load path (ofText toml path) system = .ok configuration ↔
    ∃ text, tree.read path system = .ok text ∧
      ∃ settings : Settings, settings.StatedBy toml text ∧ configuration = settings.overriding {} := by
  cases read : tree.read path system with
  | error fault => simp [FileTree.load, read]
  | ok text => simp [load_of_read read, ofText_eq_ok_iff documented]

theorem load_of_store {reading : FileTree.System} (willing : reading.refusesReading path = none)
    (stored : configuration.store toml tree path system = (after, none)) :
    after.load path (ofText toml path) reading = .ok configuration := by
  unfold store at stored
  split at stored
  · cases stored
  · rename_i text written
    cases overwritten : tree.overwrite path text.toUTF8 system with
    | mk tree fault =>
        rw [overwritten] at stored
        cases fault with
        | some fault => cases stored
        | none =>
            cases stored
            obtain ⟨location, located, holds, -⟩ := FileTree.overwrite_of_none overwritten
            rw [load_of_read (FileTree.read_of_entry? willing located holds), ofText_eq_ok_iff documented]
            exact exists_stated_of_toText documented written

theorem store_succeeds (fits : configuration.freeActionId < Nat.pow 2 63)
    (unicode : configuration.Unicode) (willing : system.RefusesNothing) (opened : tree.Open path) :
    (configuration.store toml tree path system).2 = none := by
  obtain ⟨text, written⟩ := toText_of_lt documented fits unicode
  rw [store, written]
  dsimp only
  rw [FileTree.overwrite_succeeds willing opened text.toUTF8]
  rfl

/-- A stored configuration is loaded as it was. Nothing keeps it from being stored where a file can
stand but an id out of range or a path that is no text, for which the files stay as they are. Of a file by
other hands the settings that it states are loaded over the defaults. -/
theorem loads_what_is_stated (configuration : Configuration) (tree : FileTree) (path : OsText)
    (system reading : FileTree.System) :
    (∀ after, configuration.store toml tree path system = (after, none) →
      reading.refusesReading path = none → after.load path (ofText toml path) reading = .ok configuration) ∧
    (configuration.freeActionId < Nat.pow 2 63 → configuration.Unicode → system.RefusesNothing →
      tree.Open path → (configuration.store toml tree path system).2 = none) ∧
    (Nat.pow 2 63 ≤ configuration.freeActionId ∨ ¬ configuration.Unicode →
      ∃ reason, configuration.store toml tree path system =
        (tree, some (.malformedConfiguration path reason))) ∧
    ∀ text loaded, tree.read path reading = .ok text →
      (tree.load path (ofText toml path) reading = .ok loaded ↔
        ∃ settings : Settings, settings.StatedBy toml text ∧ loaded = settings.overriding {}) := by
  refine ⟨fun _ stored willing => load_of_store documented willing stored, store_succeeds documented, ?_, ?_⟩
  · rintro (large | undecodable)
    · obtain ⟨reason, unwritten⟩ := toText_of_le documented large
      exact ⟨reason, store_of_error unwritten⟩
    · have unformed : configuration.toDocument? = none := by
        rw [← Option.not_isSome_iff_eq_none, toDocument?_isSome_iff]
        exact undecodable
      exact ⟨_, store_of_error (by rw [toText, unformed])⟩
  · intro text loaded read
    rw [load_of_read read]
    exact ofText_eq_ok_iff documented

end Storing

def kiosk : Configuration where
  dataPath := "plans \"of\" today\n"
  planFile := ""
  programPath := "'''\x07\\"
  freeActionId := 12
  exportPath := some ""

def boothText : String := "free_action_id = 12\ndata_path = \"/tmp/plans\"\n"

theorem statedBy_boothText :
    Settings.StatedBy { dataPath := some "/tmp/plans", freeActionId := some 12 } Toml.codec boothText := by
  let entries : List (String × Document) :=
    [("free_action_id", .ofId 12), ("data_path", .text "/tmp/plans")]
  have each : ∀ entry ∈ entries, Toml.Bare entry.1 ∧ Toml.Writable entry.2 := by
    simp only [entries, List.forall_mem_cons, List.not_mem_nil, false_implies, implies_true, and_true,
      Toml.Writable.text, Toml.Writable.integer (by decide : 12 < Nat.pow 2 63)]
    decide
  obtain ⟨text, written, read⟩ := Toml.codec_documented.pretty entries (by decide) each
  have spelled : Toml.codec.pretty (.fields entries) = .ok boothText := by rfl
  cases written.symm.trans spelled
  exact ⟨_, read, rfl, rfl, rfl, rfl, rfl⟩

def booth : FileTree where
  entries := (∅ : Table Location Entry).insert ["booth.toml"] (.file boothText.toUTF8)

theorem booth_loads_what_is_stated :
    Toml.Documented Toml.codec ∧
    (kiosk.store Toml.codec booth "kiosk.toml").2 = none ∧
    (kiosk.store Toml.codec booth "kiosk.toml").1.load "kiosk.toml" (ofText Toml.codec "kiosk.toml") =
      .ok kiosk ∧
    (∃ reason, ({ freeActionId := Nat.pow 2 63 } : Configuration).store Toml.codec booth "booth.toml" =
      (booth, some (.malformedConfiguration "booth.toml" reason))) ∧
    booth.load "booth.toml" (ofText Toml.codec "booth.toml") =
      .ok { dataPath := "/tmp/plans", freeActionId := 12 } := by
  have documented := Toml.codec_documented
  have opened : booth.Open "kiosk.toml" :=
    ⟨by decide +kernel, ["kiosk.toml"], rfl, by decide +kernel⟩
  have unicode : kiosk.Unicode := ⟨by decide +kernel, by decide +kernel, by decide +kernel⟩
  have stored : (kiosk.store Toml.codec booth "kiosk.toml").2 = none :=
    (loads_what_is_stated documented kiosk booth "kiosk.toml" {} {}).2.1 (by decide) unicode
      ⟨fun _ => rfl, rfl, rfl, rfl, rfl⟩ opened
  refine ⟨documented, stored, ?_, ?_, ?_⟩
  · exact (loads_what_is_stated documented kiosk booth "kiosk.toml" {} {}).1 _ (Prod.ext rfl stored) rfl
  · exact (loads_what_is_stated documented _ booth "booth.toml" {} {}).2.2.1 (Or.inl (Nat.le_refl _))
  · exact ((loads_what_is_stated documented kiosk booth "booth.toml" {} {}).2.2.2 boothText _ rfl).mpr
      ⟨_, statedBy_boothText, rfl⟩

end Configuration

end ContingentPlan
