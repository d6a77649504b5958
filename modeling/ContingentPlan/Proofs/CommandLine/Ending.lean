import ContingentPlan.BuiltIn
import ContingentPlan.Proofs.AtomicWrite

/-!
How a run of the command line ends. It stops at an input that cannot be read, at the controller, at the
export, or not at all. Each output is then either in its place as a whole or has left no trace.
-/

namespace ContingentPlan.CommandLine

inductive Written (systems : Stage → FileTree.System) : FileTree → List Output → FileTree → Prop
  | none {files : FileTree} : Written systems files [] files
  | next {files middle after : FileTree} {output : Output} {outputs : List Output} {content : String} :
      output.content = .ok content →
      files.writeAtomically output.path content.toUTF8 (systems output.stage) = (middle, .none) →
      Written systems middle outputs after → Written systems files (output :: outputs) after

/-- The place of each output holds its content, unless that of a later one is the same, and all other
files are what they were. -/
structure Holds (outputs : List Output) (before after : FileTree) : Prop where
  placed : ∀ (earlier : List Output) (output : Output) (later : List Output),
    outputs = earlier ++ output :: later → ∃ location content,
      after.locate output.path = .ok location ∧ output.content = .ok content ∧
      ((∀ other ∈ later, after.locate other.path ≠ .ok location) →
        after.entry? location = some (.file content.toUTF8))
  others : FileTree.SameBut
    (fun location => ∃ output ∈ outputs, after.locate output.path = .ok location)
    before after

section Writing

variable {systems : Stage → FileTree.System} {files middle after : FileTree} {output : Output}
  {outputs : List Output}

theorem Holds.none (files : FileTree) : Holds [] files files where
  placed := by simp
  others := .refl files

variable (fresh : ∀ stage, (systems stage).NamesFresh)
include fresh

/-- Later writes leave all directories, so that the path of an earlier one still leads to its place. -/
theorem Holds.next {content : String} (own : output.content = .ok content)
    (written : files.writeAtomically output.path content.toUTF8 (systems output.stage) =
      (middle, .none))
    (holds : Holds outputs middle after) : Holds (output :: outputs) files after := by
  obtain ⟨location, located, placed, same⟩ :=
    FileTree.writeAtomically_of_none (fresh output.stage) written
  have still := holds.others.locate located
  constructor
  · intro earlier other later split
    cases earlier with
    | nil =>
        cases split
        refine ⟨location, content, still, own, fun apart => ?_⟩
        apply (holds.others.files location _ _).mpr placed
        rintro ⟨other, member, there⟩
        exact apart other member there
    | cons first earlier =>
        cases split
        exact holds.placed earlier other later rfl
  · apply (same.mono _).trans (holds.others.mono _)
    · rintro _ rfl
      exact ⟨output, List.mem_cons_self, still⟩
    · rintro location ⟨other, member, there⟩
      exact ⟨other, List.mem_cons_of_mem _ member, there⟩

theorem Written.holds (written : Written systems files outputs after) : Holds outputs files after := by
  induction written with
  | none => exact .none _
  | next own first _ ih => exact ih.next fresh own first

omit fresh

end Writing

variable (libraries : Libraries) (systems : Stage → FileTree.System) (files : FileTree)
  (options : Options)

inductive Effective : Configuration → Prop
  | default : options.configuration = none → Effective (options.override {})
  | given {path : OsText} {configuration : Configuration} : options.configuration = some path →
      files.load path (Configuration.ofText libraries.toml path) (systems .configuration) =
        .ok configuration →
      Effective (options.override configuration)

def loadDomain : Except PlanFault Domain :=
  files.load options.domain (Domain.ofText libraries.json libraries.toml options.domain) (systems .domain)

def loadPlan (configuration : Configuration) (domain : Domain) : Except PlanFault Plan :=
  files.load configuration.planPath
    (fun trace => Plan.ofTrace domain trace configuration.freeActionId) (systems .plan)

/-- All inputs can be read, and the plan is that of the trace over the domain tables. A trace without an
announced plan has one too, which is empty. -/
structure Inputs (configuration : Configuration) (plan : Plan) : Prop where
  effective : Effective libraries systems files options configuration
  translated : ∃ domain, loadDomain libraries systems files options = .ok domain ∧
    loadPlan systems files configuration domain = .ok plan

/-- An input that cannot be read, the first one on the way. -/
inductive Unreadable : Failure → Prop
  | configuration {path : OsText} {cause : PlanFault} : options.configuration = some path →
      files.load path (Configuration.ofText libraries.toml path) (systems .configuration) =
        .error cause →
      Unreadable { activity := s!"loading configuration {path}", cause }
  | domain {configuration : Configuration} {cause : PlanFault} :
      Effective libraries systems files options configuration →
      loadDomain libraries systems files options = .error cause →
      Unreadable { activity := s!"loading domain tables {options.domain}", cause }
  | plan {configuration : Configuration} {domain : Domain} {cause : PlanFault} :
      Effective libraries systems files options configuration →
      loadDomain libraries systems files options = .ok domain →
      loadPlan systems files configuration domain = .error cause →
      Unreadable { activity := s!"parsing plan {configuration.planPath}", cause }

variable {libraries systems files options}

section Inputs

variable {configuration other : Configuration}

theorem Effective.unique (effective : Effective libraries systems files options configuration)
    (again : Effective libraries systems files options other) : configuration = other := by
  cases effective with
  | default absent =>
      cases again with
      | default => rfl
      | given present => simp [absent] at present
  | given present loaded =>
      cases again with
      | default absent => simp [absent] at present
      | given presentToo loadedToo =>
          rw [present, Option.some.injEq] at presentToo
          subst presentToo
          rw [loaded, Except.ok.injEq] at loadedToo
          rw [loadedToo]

theorem Inputs.unique {plan otherPlan : Plan}
    (inputs : Inputs libraries systems files options configuration plan)
    (again : Inputs libraries systems files options other otherPlan) :
    configuration = other ∧ plan = otherPlan := by
  obtain rfl := inputs.effective.unique again.effective
  obtain ⟨domain, loaded, translated⟩ := inputs.translated
  obtain ⟨domainToo, loadedToo, translatedToo⟩ := again.translated
  rw [loaded, Except.ok.injEq] at loadedToo
  subst loadedToo
  rw [translated, Except.ok.injEq] at translatedToo
  exact ⟨rfl, translatedToo⟩

theorem Unreadable.not_inputs {failure : Failure} {plan : Plan}
    (unreadable : Unreadable libraries systems files options failure) :
    ¬ Inputs libraries systems files options configuration plan := by
  rintro ⟨effective, domain, loaded, translated⟩
  cases unreadable with
  | configuration present fails =>
      cases effective with
      | default absent => simp [absent] at present
      | given presentToo loadedToo =>
          rw [present, Option.some.injEq] at presentToo
          subst presentToo
          simp [fails] at loadedToo
  | domain _ fails => simp [loaded] at fails
  | plan effectiveToo loadedToo fails =>
      obtain rfl := effective.unique effectiveToo
      rw [loaded, Except.ok.injEq] at loadedToo
      subst loadedToo
      simp [translated] at fails

theorem run_bind {ε α β : Type} (first : ExceptT ε Id α) (next : α → ExceptT ε Id β) :
    Id.run (first >>= next).run = Id.run first.run >>= fun value => Id.run (next value).run := by
  change Except ε α at first
  cases first <;> rfl

theorem ok_bind {ε α β : Type} (value : α) (next : α → Except ε β) :
    Except.ok value >>= next = next value := rfl

theorem run_load {α : Type} (files : FileTree) (activity : String) (stage : Stage) (path : OsText)
    (make : String → Except PlanFault α) :
    Id.run (load (reader systems files) activity stage path make).run =
      (files.load path make (systems stage)).mapError fun cause => { activity, cause } := by
  have reads : reader systems files stage path = pure (files.read path (systems stage)) := rfl
  unfold load FileTree.load
  rw [reads]
  generalize files.read path (systems stage) = read
  cases read with
  | error fault => rfl
  | ok text =>
      rw [run_bind]
      change (Except.ok (Except.ok text) : Except Failure _) >>= _ = _
      rw [ok_bind]
      dsimp only
      generalize make text = made
      cases made <;> rfl

end Inputs

section Endings

def programOutput (configuration : Configuration) (plan : Plan) : Output where
  stage := .program
  path := configuration.programPath
  content := .ok plan.graph.program

def exportOutput (json : Codec) (plan : Plan) (path : OsText) : Output where
  stage := .exported
  path := path
  content := exportText json plan.graph

def shown (options : Options) (plan : Plan) : String :=
  if options.printPlan then plan.graph.summary else ""

inductive Ending
  | unread
  | unwritten
  | unexported
  | completed

variable (libraries systems files options)

def writeProgram (configuration : Configuration) (plan : Plan) : FileTree × Option PlanFault :=
  files.writeAtomically configuration.programPath plan.graph.program.toUTF8 (systems .program)

/-- The outcome of a run with the given ending, and the files that it leaves. -/
inductive Ends : Ending → Outcome → FileTree → Prop
  | unread {failure : Failure} : Unreadable libraries systems files options failure →
      Ends .unread (.ended "" (some failure)) files
  | unwritten {configuration : Configuration} {plan : Plan} {cause : PlanFault} {after : FileTree} :
      Inputs libraries systems files options configuration plan →
      (writeProgram systems files configuration plan).2 = some cause →
      FileTree.SameBut (fun _ => False) files after →
      Ends .unwritten
        (.ended (shown options plan)
          (some { activity := s!"writing {configuration.programPath}", cause })) after
  | unexported {configuration : Configuration} {plan : Plan} {path : OsText} {cause : PlanFault}
      {after : FileTree} :
      Inputs libraries systems files options configuration plan →
      configuration.exportPath = some path →
      (writeProgram systems files configuration plan).2 = none →
      Holds [programOutput configuration plan] files after →
      Ends .unexported
        (.ended (shown options plan) (some { activity := s!"writing {path}", cause })) after
  | completed {configuration : Configuration} {plan : Plan} {after : FileTree} :
      Inputs libraries systems files options configuration plan →
      Holds (programOutput configuration plan ::
        (configuration.exportPath.map (exportOutput libraries.json plan)).toList) files after →
      Ends .completed (.ended (shown options plan) none) after

variable {libraries systems files options} {after : FileTree}

/-- The inputs, the write of the controller and the failure decide the ending. -/
theorem Ends.unique {ending other : Ending} {outcome otherOutcome : Outcome} {otherAfter : FileTree}
    (ends : Ends libraries systems files options ending outcome after)
    (again : Ends libraries systems files options other otherOutcome otherAfter)
    (same : outcome = otherOutcome) : ending = other := by
  cases ends with
  | unread unreadable =>
      cases again with
      | unread => rfl
      | unwritten inputs => exact absurd inputs unreadable.not_inputs
      | unexported inputs => exact absurd inputs unreadable.not_inputs
      | completed inputs => exact absurd inputs unreadable.not_inputs
  | unwritten inputs failed =>
      cases again with
      | unread unreadable => exact absurd inputs unreadable.not_inputs
      | unwritten => rfl
      | unexported inputsToo _ succeeded =>
          obtain ⟨rfl, rfl⟩ := inputs.unique inputsToo
          rw [failed] at succeeded
          cases succeeded
      | completed => cases (Outcome.ended.inj same).2
  | unexported inputs _ succeeded =>
      cases again with
      | unread unreadable => exact absurd inputs unreadable.not_inputs
      | unwritten inputsToo failed =>
          obtain ⟨rfl, rfl⟩ := inputs.unique inputsToo
          rw [failed] at succeeded
          cases succeeded
      | unexported => rfl
      | completed => cases (Outcome.ended.inj same).2
  | completed inputs =>
      cases again with
      | unread unreadable => exact absurd inputs unreadable.not_inputs
      | unwritten => cases (Outcome.ended.inj same).2
      | unexported => cases (Outcome.ended.inj same).2
      | completed => rfl

variable (fresh : ∀ stage, (systems stage).NamesFresh)
include fresh

variable {environment : Table OsText OsText} {words : List OsText}

end Endings

end ContingentPlan.CommandLine
