import ContingentPlan.Proofs.Plan.Failure
import Mathlib.Data.List.Induction

/-!
Sessions over any sequence of calls. A call whose trace file cannot be read leaves the session as it
was; every other call is answered as in a new session and leaves nothing of the plans before it.
-/

namespace ContingentPlan

section Files

variable {tree : FileTree} {system : FileTree.System} {path : OsText}

theorem FileTree.walk_eq_error {current : Location} {pieces : List OsText} {fault : FileFault}
    (fails : tree.walk current pieces = .error fault) :
    fault = .notFound ∨ fault = .notDirectory := by
  induction pieces generalizing current with
  | nil => cases fails
  | cons piece rest ih =>
      rw [walk] at fails
      split at fails
      · cases fails
        exact Or.inl rfl
      · cases fails
        exact Or.inr rfl
      · exact ih fails

theorem FileTree.locate_ne_notText : tree.locate path ≠ .error .notText := by
  intro fails
  unfold locate at fails
  split at fails
  · cases fails
  · rcases walk_eq_error fails with other | other <;> cases other

theorem FileTree.read_eq_notText_iff (willing : system.refusesReading path = none) :
    tree.read path system = .error .notText ↔
      ∃ location content, tree.locate path = .ok location ∧
        tree.entry? location = some (.file content) ∧ String.fromUTF8? content = none := by
  rw [read, willing]
  dsimp only
  rw [except_bind_eq_error_iff]
  constructor
  · rintro (unlocated | ⟨location, located, fails⟩)
    · exact absurd unlocated locate_ne_notText
    · split at fails
      · cases fails
      · cases fails
      · rename_i content entry
        split at fails
        · rename_i undecodable
          exact ⟨location, content, located, entry, undecodable⟩
        · cases fails
  · rintro ⟨location, content, located, entry, undecodable⟩
    refine Or.inr ⟨location, located, ?_⟩
    rw [entry]
    dsimp only
    rw [undecodable]
    rfl

end Files

inductive Call
  | prepare (domain : Domain) (trace : String) (freeId : Nat)
  | prepareFile (system : FileTree.System) (files : FileTree) (domain : Domain) (path : OsText)
      (freeId : Nat)
  | prepareConfigured (system : FileTree.System) (files : FileTree) (domain : Domain)
      (configuration : Configuration)
  | reset

namespace Call

inductive Supplies : Call → Domain → String → Nat → Prop
  | prepare {domain : Domain} {trace : String} {freeId : Nat} :
      Supplies (.prepare domain trace freeId) domain trace freeId
  | file {system : FileTree.System} {files : FileTree} {domain : Domain} {path : OsText}
      {trace : String} {freeId : Nat} : files.read path system = .ok trace →
      Supplies (.prepareFile system files domain path freeId) domain trace freeId
  | configured {system : FileTree.System} {files : FileTree} {domain : Domain}
      {configuration : Configuration} {trace : String} :
      files.read configuration.planPath system = .ok trace →
      Supplies (.prepareConfigured system files domain configuration) domain trace
        configuration.freeActionId

inductive Names : Call → FileTree.System → FileTree → OsText → Prop
  | file {system : FileTree.System} {files : FileTree} {domain : Domain} {path : OsText}
      {freeId : Nat} : Names (.prepareFile system files domain path freeId) system files path
  | configured {system : FileTree.System} {files : FileTree} {domain : Domain}
      {configuration : Configuration} :
      Names (.prepareConfigured system files domain configuration) system files configuration.planPath

inductive Unreadable : Call → OsText → FileFault → Prop
  | file {system : FileTree.System} {files : FileTree} {domain : Domain} {path : OsText}
      {freeId : Nat} {fault : FileFault} : files.read path system = .error fault →
      Unreadable (.prepareFile system files domain path freeId) path fault
  | configured {system : FileTree.System} {files : FileTree} {domain : Domain}
      {configuration : Configuration} {fault : FileFault} :
      files.read configuration.planPath system = .error fault →
      Unreadable (.prepareConfigured system files domain configuration) configuration.planPath fault

variable {call : Call} {system : FileTree.System} {files : FileTree} {path : OsText}
  {fault : FileFault}

theorem Names.unreadable (names : call.Names system files path)
    (fails : files.read path system = .error fault) : call.Unreadable path fault := by
  cases names with
  | file => exact .file fails
  | configured => exact .configured fails

def readable : Call → Bool
  | .prepare _ _ _ => true
  | .prepareFile system files _ path _ => (files.read path system).isOk
  | .prepareConfigured system files _ configuration => (files.read configuration.planPath system).isOk
  | .reset => true

theorem readable_eq_false_iff : call.readable = false ↔ ∃ path fault, call.Unreadable path fault := by
  constructor
  · intro unreadable
    cases call with
    | prepare => cases unreadable
    | prepareFile system files domain path freeId =>
        cases read : files.read path system with
        | ok trace => simp [readable, read, Except.isOk, Except.toBool] at unreadable
        | error fault => exact ⟨path, fault, .file read⟩
    | prepareConfigured system files domain configuration =>
        cases read : files.read configuration.planPath system with
        | ok trace => simp [readable, read, Except.isOk, Except.toBool] at unreadable
        | error fault => exact ⟨_, fault, .configured read⟩
    | reset => cases unreadable
  · rintro ⟨path, fault, read | read⟩ <;> simp [readable, read, Except.isOk, Except.toBool]

theorem cases_of_files (call : Call) :
    call = .reset ∨ (∃ domain trace freeId, call.Supplies domain trace freeId) ∨
      ∃ path fault, call.Unreadable path fault := by
  cases call with
  | prepare domain trace freeId => exact Or.inr (Or.inl ⟨domain, trace, freeId, .prepare⟩)
  | prepareFile system files domain path freeId =>
      cases read : files.read path system with
      | ok trace => exact Or.inr (Or.inl ⟨domain, trace, freeId, .file read⟩)
      | error fault => exact Or.inr (Or.inr ⟨path, fault, .file read⟩)
  | prepareConfigured system files domain configuration =>
      cases read : files.read configuration.planPath system with
      | ok trace => exact Or.inr (Or.inl ⟨domain, trace, _, .configured read⟩)
      | error fault => exact Or.inr (Or.inr ⟨_, fault, .configured read⟩)
  | reset => exact Or.inl rfl

end Call

namespace Session

def perform (session : Session) : Call → Option (Except PlanFault Report) × Session
  | .prepare domain trace freeId => (session.prepare domain trace freeId).map some id
  | .prepareFile system files domain path freeId =>
      (session.prepareFile files domain path freeId system).map some id
  | .prepareConfigured system files domain configuration =>
      (session.prepareConfigured files domain configuration system).map some id
  | .reset => (none, session.reset)

def after (session : Session) (calls : List Call) : Session :=
  calls.foldl (fun session call => (session.perform call).2) session

variable {session : Session} {call : Call} {domain : Domain} {trace : String} {path : OsText} {freeId : Nat}
  {fault : FileFault}

theorem perform_of_supplies (supplies : call.Supplies domain trace freeId) :
    session.perform call = (session.prepare domain trace freeId).map some id := by
  cases supplies with
  | prepare => rfl
  | file read => rw [perform, prepareFile, read]
  | configured read => rw [perform, prepareConfigured, prepareFile, read]

theorem perform_of_unreadable (unreadable : call.Unreadable path fault) :
    session.perform call = (some (.error (.file path fault)), session) := by
  cases unreadable with
  | file read =>
      rw [perform, prepareFile, read]
      rfl
  | configured read =>
      rw [perform, prepareConfigured, prepareFile, read]
      rfl

theorem perform_of_readable (readable : call.readable = true) :
    session.perform call = ({} : Session).perform call := by
  rcases call.cases_of_files with rfl | ⟨domain, trace, freeId, supplies⟩ | unreadable
  · rw [perform, perform, reset_eq, reset_eq]
  · rw [perform_of_supplies supplies, perform_of_supplies supplies, prepare_eq, prepare_eq]
  · rw [Call.readable_eq_false_iff.mpr unreadable] at readable
    cases readable

/-- What one call does in a session: `fresh` says that it is answered as in a new one, the other fields
go through the cases that it can be in. -/
structure Answers (session : Session) (call : Call) : Prop where
  fresh : (session.perform call).1 = (({} : Session).perform call).1
  found : ∀ domain trace freeId plan, call.Supplies domain trace freeId →
    Plan.ofTrace domain trace freeId = .ok plan → plan.found = true →
    session.perform call = (some (.ok plan.report), { graph := plan.graph })
  silent : ∀ domain trace freeId, call.Supplies domain trace freeId → planBlock? trace = none →
    session.perform call =
      (some (.ok { planFound := false, nodeCount := 0, nextId := freeId, warnings := [] }), {})
  misfit : ∀ domain trace freeId fault, call.Supplies domain trace freeId →
    Plan.ofTrace domain trace freeId = .error fault →
    session.perform call = (some (.error fault), {}) ∧
      ((∃ table name known, fault = .unknownName table name known) ∨
        ∃ operator declared given, fault = .tooManyArguments operator declared given)
  reset : call = .reset → session.perform call = (none, {})
  unreadable : ∀ path fault, call.Unreadable path fault →
    session.perform call = (some (.error (.file path fault)), session)
  garbled : ∀ system files path location content, call.Names system files path →
    system.refusesReading path = none → files.locate path = .ok location →
    files.entry? location = some (.file content) →
    String.fromUTF8? content = none →
    session.perform call = (some (.error (.file path .notText)), session)
  complete : call = .reset ∨ (∃ domain trace freeId, call.Supplies domain trace freeId) ∨
    ∃ path fault, call.Unreadable path fault

theorem fault_of_ofTrace {fault : PlanFault} (fails : Plan.ofTrace domain trace freeId = .error fault) :
    (∃ table name known, fault = .unknownName table name known) ∨
      ∃ operator declared given, fault = .tooManyArguments operator declared given := by
  obtain ⟨_, _, _, -, ⟨signature, -, misfits⟩, -⟩ :=
    Plan.ofTrace_eq_error_iff_firstMisfit.mp fails
  cases misfits with
  | operator => exact Or.inl ⟨_, _, _, rfl⟩
  | arguments => exact Or.inr ⟨_, _, _, rfl⟩
  | entry => exact Or.inl ⟨_, _, _, rfl⟩
  | precondition => exact Or.inl ⟨_, _, _, rfl⟩
  | outcome => exact Or.inl ⟨_, _, _, rfl⟩

theorem answers (session : Session) (call : Call) : session.Answers call where
  fresh := by
    cases readable : call.readable with
    | true => rw [perform_of_readable readable]
    | false =>
        obtain ⟨path, fault, unreadable⟩ := Call.readable_eq_false_iff.mp readable
        rw [perform_of_unreadable unreadable, perform_of_unreadable unreadable]
  found domain trace freeId plan supplies read _ := by
    rw [perform_of_supplies supplies, prepare_eq, read]
    rfl
  silent domain trace freeId supplies silent := by
    rw [perform_of_supplies supplies, prepare_eq, Plan.ofTrace, silent]
    rfl
  misfit domain trace freeId fault supplies fails := by
    refine ⟨?_, fault_of_ofTrace fails⟩
    rw [perform_of_supplies supplies, prepare_eq, fails]
    rfl
  reset same := by
    rw [same, perform, reset_eq]
  unreadable path fault := perform_of_unreadable
  garbled system files path location content names willing located entry undecodable := by
    have fails :=
      (FileTree.read_eq_notText_iff willing).mpr ⟨location, content, located, entry, undecodable⟩
    exact perform_of_unreadable (names.unreadable fails)
  complete := call.cases_of_files

theorem after_concat (calls : List Call) :
    session.after (calls ++ [call]) = ((session.after calls).perform call).2 := by
  rw [after, List.foldl_append]
  rfl

theorem after_eq_last (calls : List Call) :
    ({} : Session).after calls =
      match (calls.filter Call.readable).getLast? with
      | none => {}
      | some call => (({} : Session).perform call).2 := by
  induction calls using List.reverseRecOn with
  | nil => rfl
  | append_singleton calls call ih =>
      rw [after_concat, List.filter_append]
      cases readable : call.readable with
      | true =>
          rw [perform_of_readable readable, List.filter_singleton, readable, cond_true,
            List.getLast?_concat]
      | false =>
          obtain ⟨path, fault, unreadable⟩ := Call.readable_eq_false_iff.mp readable
          rw [perform_of_unreadable unreadable, List.filter_singleton, readable, cond_false,
            List.append_nil]
          exact ih

/-- After any calls the session is as the last readable one of them alone leaves a new session, and the
next call is answered in it as `Answers` says. -/
theorem forgets (calls : List Call) :
    (({} : Session).after calls =
      match (calls.filter Call.readable).getLast? with
      | none => {}
      | some call => (({} : Session).perform call).2) ∧
    ∀ call, (({} : Session).after calls).Answers call :=
  ⟨after_eq_last calls, answers _⟩

end Session

end ContingentPlan
