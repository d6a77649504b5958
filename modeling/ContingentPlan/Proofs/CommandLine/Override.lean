import ContingentPlan.Proofs.CommandLine.Ending
import ContingentPlan.Proofs.CommandLine.Options
import ContingentPlan.Proofs.Configuration
import ContingentPlan.Proofs.Path

/-!
How the configuration of a run comes about. The values of the command line and its environment stand over
the settings of the configuration file, and those over the defaults. The plan is one value over two
settings, from which its path comes together again if its file name is a text.
-/

namespace ContingentPlan.CommandLine

def merged (libraries : Libraries) (systems : Stage → FileTree.System) (files : FileTree)
    (options : Options) : Except Failure Configuration :=
  Id.run (effectiveConfiguration libraries (reader systems files) options).run

/-- The settings of the configuration file of the path, or none without one. -/
inductive Beneath (libraries : Libraries) (systems : Stage → FileTree.System) (files : FileTree) :
    Option OsText → Settings → Prop
  | nothing : Beneath libraries systems files none {}
  | file {path : OsText} {text : String} {settings : Settings} :
      files.read path (systems .configuration) = .ok text → settings.StatedBy libraries.toml text →
      Beneath libraries systems files (some path) settings

section Merging

variable {libraries : Libraries} {systems : Stage → FileTree.System} {files : FileTree}
  {options : Options} {configuration left right : Configuration} {path : Option OsText}
  {beneath others : Settings} {values : Setting → Option OsText}

theorem Beneath.unique (under : Beneath libraries systems files path beneath)
    (again : Beneath libraries systems files path others) : beneath = others := by
  cases under with
  | nothing =>
      cases again
      rfl
  | file read stated =>
      cases again with
      | file readToo statedToo =>
          cases read.symm.trans readToo
          exact stated.unique statedToo

theorem mapError_eq_ok_iff {ε ε' α : Type} {result : Except ε α} {change : ε → ε'} {value : α} :
    result.mapError change = .ok value ↔ result = .ok value := by
  cases result <;> simp [Except.mapError]

theorem merged_eq_ok_iff (documented : Toml.Documented libraries.toml) :
    merged libraries systems files options = .ok configuration ↔
      ∃ beneath, Beneath libraries systems files options.configuration beneath ∧
        configuration = options.override (beneath.overriding {}) := by
  unfold merged effectiveConfiguration
  cases named : options.configuration with
  | none =>
      change Except.ok (options.override {}) = _ ↔ _
      rw [Except.ok.injEq]
      constructor
      · rintro rfl
        exact ⟨_, .nothing, rfl⟩
      · rintro ⟨_, ⟨⟩, rfl⟩
        rfl
  | some path =>
      dsimp only
      rw [run_bind, run_load, except_bind_eq_ok]
      simp only [mapError_eq_ok_iff, Configuration.load_eq_ok_iff documented]
      constructor
      · rintro ⟨_, ⟨text, read, beneath, stated, rfl⟩, ⟨⟩⟩
        exact ⟨beneath, .file read stated, rfl⟩
      · rintro ⟨beneath, under, rfl⟩
        cases under with
        | file read stated => exact ⟨_, ⟨_, read, beneath, stated, rfl⟩, rfl⟩

/-- Each field is that of the first layer to have it: of the values, of the settings beneath them, or of
the defaults. -/
structure Layered (values : Setting → Option OsText) (beneath : Settings)
    (configuration : Configuration) : Prop where
  plan : ∀ plan, values .plan = some plan → configuration.dataPath = (Path.parent? plan).getD "" ∧
    configuration.planFile = ((Path.fileName? plan).map OsText.lossy).getD ""
  noPlan : values .plan = none →
    configuration.dataPath =
      (beneath.dataPath.map OsText.ofText).getD ({} : Configuration).dataPath ∧
    configuration.planFile = beneath.planFile.getD ({} : Configuration).planFile
  programPath : configuration.programPath =
    ((values .output).or (beneath.programPath.map OsText.ofText)).getD ({} : Configuration).programPath
  id : ∀ value, values .freeActionId = some value →
    value.text?.bind number? = some configuration.freeActionId
  noId : values .freeActionId = none →
    configuration.freeActionId = beneath.freeActionId.getD ({} : Configuration).freeActionId
  exportPath : configuration.exportPath =
    (values .exportPath).or (beneath.exportPath.map OsText.ofText)

theorem layered_override (carry : options.Carry values) :
    Layered values beneath (options.override (beneath.overriding {})) where
  plan plan named := by simp [Options.override, carry.plan, named]
  noPlan named := by simp [Options.override, Settings.overriding, carry.plan, named]
  programPath := by
    rw [← carry.output]
    cases named : options.output <;> simp [Options.override, Settings.overriding, named]
  id value named := by
    have number := carry.admissible _ value named
    rw [isAdmissible, Option.isSome_iff_exists] at number
    obtain ⟨id, number⟩ := number
    simp [Options.override, carry.freeActionId, named, number]
  noId named := by simp [Options.override, Settings.overriding, carry.freeActionId, named]
  exportPath := by
    rw [← carry.exportPath]
    cases named : options.exportPath <;> simp [Options.override, Settings.overriding, named]

structure AgreeBut (setting : Setting) (left right : Configuration) : Prop where
  plan : setting ≠ .plan → left.dataPath = right.dataPath ∧ left.planFile = right.planFile
  programPath : setting ≠ .output → left.programPath = right.programPath
  freeActionId : setting ≠ .freeActionId → left.freeActionId = right.freeActionId
  exportPath : setting ≠ .exportPath → left.exportPath = right.exportPath

theorem Layered.agreeBut {setting : Setting} {valuesToo : Setting → Option OsText}
    (layered : Layered values beneath left) (again : Layered valuesToo beneath right)
    (same : ∀ other, other ≠ setting → values other = valuesToo other) : AgreeBut setting left right where
  plan apart := by
    cases named : valuesToo .plan with
    | none =>
        have none := (same .plan apart.symm).trans named
        rw [(layered.noPlan none).1, (layered.noPlan none).2, (again.noPlan named).1,
          (again.noPlan named).2]
        exact ⟨rfl, rfl⟩
    | some plan =>
        have some := (same .plan apart.symm).trans named
        rw [(layered.plan plan some).1, (layered.plan plan some).2, (again.plan plan named).1,
          (again.plan plan named).2]
        exact ⟨rfl, rfl⟩
  programPath apart := by rw [layered.programPath, again.programPath, same .output apart.symm]
  freeActionId apart := by
    cases named : valuesToo .freeActionId with
    | none => rw [layered.noId ((same .freeActionId apart.symm).trans named), again.noId named]
    | some value =>
        have id := layered.id value ((same .freeActionId apart.symm).trans named)
        rw [again.id value named] at id
        exact (Option.some.inj id).symm
  exportPath apart := by rw [layered.exportPath, again.exportPath, same .exportPath apart.symm]

theorem Layered.unique (layered : Layered values beneath left) (again : Layered values beneath right) :
    left = right := by
  have agree (setting : Setting) : AgreeBut setting left right := layered.agreeBut again fun _ _ => rfl
  have path := (agree .output).plan nofun
  have program := (agree .plan).programPath nofun
  have id := (agree .plan).freeActionId nofun
  have exported := (agree .plan).exportPath nofun
  cases left
  cases right
  simp_all

theorem merged_eq_ok_iff_layered (documented : Toml.Documented libraries.toml)
    (carry : options.Carry values) : merged libraries systems files options = .ok configuration ↔
      ∃ beneath, Beneath libraries systems files (values .configuration) beneath ∧
        Layered values beneath configuration := by
  rw [merged_eq_ok_iff documented, carry.configuration]
  refine exists_congr fun beneath => and_congr_right fun _ => ⟨?_, fun layered => ?_⟩
  · rintro rfl
    exact layered_override carry
  · exact layered.unique (layered_override carry)

theorem Layered.components_planPath_iff {plan name : OsText}
    (layered : Layered values beneath configuration) (given : values .plan = some plan)
    (last : (Path.components plan).getLast? = some name) (normal : Path.IsNormal name) :
    Path.components configuration.planPath = Path.components plan ↔ name.text?.isSome := by
  have named := Path.fileName?_of_isNormal last normal
  obtain ⟨-, -, -, bare, -⟩ := Path.exists_parent_of_fileName? named
  rw [Configuration.planPath, (layered.plan plan given).1, (layered.plan plan given).2, named,
    ← OsText.ofText_lossy_eq_iff]
  exact Path.components_join_parent_iff last normal (OsText.slash_not_mem_lossy bare)

variable (libraries systems files) in
def IsMerged (values : Setting → Option OsText) (configuration : Configuration) : Prop :=
  ∃ beneath, Beneath libraries systems files (values .configuration) beneath ∧
    Layered values beneath configuration

/-- Each field of the configuration comes from the values of the command line and its environment, else
from the configuration file, else from the defaults, and is out of reach of the other values. All values
that combine can be given. The plan's path has the components of the value that was given for it just if
its file name is a text in UTF-8. -/
theorem merges_by_layer {given : List OsText → Setting → Option OsText}
    (toml : Toml.Documented libraries.toml)
    (arguments : DocumentedArguments libraries.arguments given) (systems : Stage → FileTree.System)
    (files : FileTree) :
    (∀ environment words options, libraries.arguments environment words = .ok options →
      ∀ configuration, merged libraries systems files options = .ok configuration ↔
        IsMerged libraries systems files (behind environment (given words)) configuration) ∧
    (∀ environment (values : Table Setting OsText), Combines environment values →
      ∃ options, libraries.arguments environment (values.entries.map assignment) = .ok options ∧
        ∀ configuration, merged libraries systems files options = .ok configuration ↔
          IsMerged libraries systems files (behind environment values.find?) configuration) ∧
    (∀ environment words options configuration plan name,
      libraries.arguments environment words = .ok options →
      merged libraries systems files options = .ok configuration →
      behind environment (given words) .plan = some plan →
      (Path.components plan).getLast? = some name → Path.IsNormal name →
      (Path.components configuration.planPath = Path.components plan ↔ name.text?.isSome)) ∧
    ∀ environment words options otherEnvironment otherWords otherOptions setting,
      libraries.arguments environment words = .ok options →
      libraries.arguments otherEnvironment otherWords = .ok otherOptions → setting ≠ .configuration →
      (∀ other, other ≠ setting →
        behind environment (given words) other = behind otherEnvironment (given otherWords) other) →
      ∀ left right, merged libraries systems files options = .ok left →
        merged libraries systems files otherOptions = .ok right → AgreeBut setting left right := by
  have merges {environment : Table OsText OsText} {words : List OsText} {options : Options}
      (accepted : libraries.arguments environment words = .ok options) (configuration : Configuration) :
      merged libraries systems files options = .ok configuration ↔
        IsMerged libraries systems files (behind environment (given words)) configuration :=
    merged_eq_ok_iff_layered toml (arguments.carry _ _ _ accepted)
  refine ⟨fun _ _ _ => merges, ?_, ?_, ?_⟩
  · intro environment values combines
    obtain ⟨⟨options, accepted⟩, same⟩ := arguments.assign environment values combines
    exact ⟨options, accepted, same ▸ merges accepted⟩
  · intro environment words options configuration plan name accepted merged given last normal
    obtain ⟨beneath, -, layered⟩ := (merges accepted configuration).mp merged
    exact layered.components_planPath_iff given last normal
  · intro environment words options otherEnvironment otherWords otherOptions setting accepted
      acceptedToo apart same left right leftMerged rightMerged
    obtain ⟨beneath, under, layered⟩ := (merges accepted left).mp leftMerged
    obtain ⟨others, underToo, layeredToo⟩ := (merges acceptedToo right).mp rightMerged
    rw [← same .configuration apart.symm] at underToo
    obtain rfl := under.unique underToo
    exact layered.agreeBut layeredToo same

end Merging

def boothPlan : OsText := ".//traces/./plän.pddl/"

def boothWords : List OsText :=
  ["--domain", "booth.json", "--config=booth.toml", "--free-action-id", "7", "-p.//traces/./plän.pddl/"]

def boothEnvironment : Table OsText OsText :=
  (∅ : Table OsText OsText).insert "PLANSTRL_STRL_FILE" "out.strl"

def boothOptions (output : OsText) : Options where
  configuration := some "booth.toml"
  domain := "booth.json"
  plan := some boothPlan
  output := some output
  freeActionId := some 7
  exportPath := none
  printPlan := false

def boothConfiguration (output : OsText) : Configuration where
  dataPath := ".//traces"
  planFile := "plän.pddl"
  programPath := output
  freeActionId := 7

def boothMerged (options : Options) : Except Failure Configuration :=
  merged .builtIn (fun _ => {}) Configuration.booth options

theorem booth_merges_by_layer :
    Toml.Documented Libraries.builtIn.toml ∧
    DocumentedArguments Libraries.builtIn.arguments givenBy ∧
    boothMerged (boothOptions "out.strl") = .ok (boothConfiguration "out.strl") ∧
    Layered (behind boothEnvironment (givenBy boothWords))
      { dataPath := some "/tmp/plans", freeActionId := some 12 } (boothConfiguration "out.strl") ∧
    Path.components (boothConfiguration "out.strl").planPath = Path.components boothPlan ∧
    AgreeBut .output (boothConfiguration "out.strl") (boothConfiguration "plan.strl") := by
  have accepted : Libraries.builtIn.arguments boothEnvironment boothWords =
      .ok (boothOptions "out.strl") := by decide +kernel
  have acceptedToo : Libraries.builtIn.arguments boothEnvironment ("--output=plan.strl" :: boothWords) =
      .ok (boothOptions "plan.strl") := by decide +kernel
  have left : boothMerged (boothOptions "out.strl") = .ok (boothConfiguration "out.strl") := by
    decide +kernel
  have right : boothMerged (boothOptions "plan.strl") = .ok (boothConfiguration "plan.strl") := by
    decide +kernel
  have toml : Toml.Documented Libraries.builtIn.toml := Toml.codec_documented
  have arguments : DocumentedArguments Libraries.builtIn.arguments givenBy := ofWords_documented
  obtain ⟨layers, -, path, apart⟩ :=
    merges_by_layer toml arguments (fun _ => {}) Configuration.booth
  obtain ⟨beneath, under, layered⟩ := (layers _ _ _ accepted _).mp left
  have file : Beneath .builtIn (fun _ => {}) Configuration.booth
      (behind boothEnvironment (givenBy boothWords) .configuration)
      { dataPath := some "/tmp/plans", freeActionId := some 12 } :=
    .file rfl Configuration.statedBy_boothText
  refine ⟨toml, arguments, left, under.unique file ▸ layered, ?_, ?_⟩
  · refine (path _ _ _ _ boothPlan "plän.pddl" accepted left ?_ ?_ ?_).mpr ?_ <;> decide +kernel
  · refine apart _ _ _ _ _ _ .output accepted acceptedToo nofun (fun other different => ?_) _ _ left right
    cases other <;> first | exact absurd rfl different | decide +kernel

def latinPlan : OsText where
  bytes := (OsText.ofText "traces/pl").bytes ++ 0xE9 :: (OsText.ofText "n.pddl").bytes

def planWords (plan : OsText) : List OsText := ["--domain", "domain.json", "--plan", plan]

def planPathOf (plan : OsText) : Option OsText :=
  match Libraries.builtIn.arguments ∅ (planWords plan) with
  | .ok options => (merged .builtIn (fun _ => {}) {} options).toOption.map Configuration.planPath
  | .error _ => none

/-- The plan's path loses a file name that is no text, and a root too. -/
theorem latinPlan_changes :
    (Path.components latinPlan).getLast?.map (fun name => decide (Path.IsNormal name)) = some true ∧
    planPathOf latinPlan = some "traces/pl\uFFFDn.pddl" ∧
    (planPathOf latinPlan).map Path.components ≠ some (Path.components latinPlan) ∧
    planPathOf "/" = some "" := by
  refine ⟨?_, ?_, ?_, ?_⟩ <;> decide +kernel

end ContingentPlan.CommandLine
