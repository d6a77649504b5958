import ContingentPlan.Proofs.Reading.Warnings
import ContingentPlan.Proofs.Trace.Words

/-!
Only the words of the first plan block matter. Two traces with the same words are read in step: they
have the same plan or the same fault, and warnings that differ in their line numbers and in the text
that they quote.
-/

namespace ContingentPlan

def Anomaly.unquoted : Anomaly → Anomaly
  | .shallowStack _ => .shallowStack ""
  | .emptyStack token => .emptyStack token
  | .malformedLine _ => .malformedLine ""
  | .missingObservation action => .missingObservation action

def Warning.unquoted (warning : Warning) : Anomaly := warning.anomaly.unquoted

namespace Reading

variable {domain : Domain} {first second : Reading} {line other : TraceLine}
  {lines others : List TraceLine}

theorem issued_unquoted (same : first.quiet = second.quiet) (token : line.token? = other.token?) :
    (first.issued line).map Warning.unquoted = (second.issued other).map Warning.unquoted := by
  rw [issued_of_quiet same, issued, issued, token]
  cases other.token? with
  | none => rfl
  | some asked =>
      cases asked with
      | ramificate =>
          dsimp only
          split <;> rfl
      | pop =>
          dsimp only
          split <;> rfl
      | shed => rfl
      | assume => rfl
      | action signature =>
          dsimp only
          cases second.gating <;> rfl

/-- Runs over lines with the same tokens go on in step to their ends, or stop at the same fault. -/
theorem foldlM_quiet (tokens : lines.map TraceLine.token? = others.map TraceLine.token?)
    (same : first.quiet = second.quiet) :
    (lines.foldlM (step domain) first).map quiet = (others.foldlM (step domain) second).map quiet := by
  induction lines generalizing others first second with
  | nil =>
      obtain rfl := List.map_eq_nil_iff.mp tokens.symm
      exact congrArg Except.ok same
  | cons line lines ih =>
      obtain ⟨other, rest, rfl, token, later⟩ := List.map_eq_cons_iff.mp tokens.symm
      rw [List.foldlM_cons, List.foldlM_cons]
      rcases cases_of_map_quiet (step_quiet same token.symm) with
        ⟨fault, fails, failsToo⟩ | ⟨middle, next, step, again, quiet⟩
      · rw [fails, failsToo]
        rfl
      · rw [step, again]
        exact ih later.symm quiet

theorem issuedAlong_unquoted (tokens : lines.map TraceLine.token? = others.map TraceLine.token?)
    (same : first.quiet = second.quiet) :
    (first.issuedAlong domain lines).map Warning.unquoted =
      (second.issuedAlong domain others).map Warning.unquoted := by
  induction lines generalizing others first second with
  | nil =>
      obtain rfl := List.map_eq_nil_iff.mp tokens.symm
      rfl
  | cons line lines ih =>
      obtain ⟨other, rest, rfl, token, later⟩ := List.map_eq_cons_iff.mp tokens.symm
      rw [issuedAlong, issuedAlong, List.map_append, List.map_append,
        issued_unquoted same token.symm]
      congr 1
      rcases cases_of_map_quiet (step_quiet same token.symm) with
        ⟨fault, fails, failsToo⟩ | ⟨middle, next, step, again, quiet⟩
      · rw [fails, failsToo]
      · rw [step, again]
        exact ih later.symm quiet

end Reading

/-- The same fault, or reports that differ in the numbers and the quotes of their warnings only. -/
inductive Alike : Except PlanFault Report → Except PlanFault Report → Prop
  | fault (fault : PlanFault) : Alike (.error fault) (.error fault)
  | report {first second : Report} : first.planFound = second.planFound →
      first.nodeCount = second.nodeCount → first.nextId = second.nextId →
      first.warnings.map Warning.unquoted = second.warnings.map Warning.unquoted →
      Alike (.ok first) (.ok second)

namespace Session

variable {domain : Domain} {first second : String} {freeId : Nat}

theorem prepare_alike (session other : Session)
    (words : wordLists? (Text.lines first) = wordLists? (Text.lines second)) :
    Alike (session.prepare domain first freeId).1 (other.prepare domain second freeId).1 ∧
      (session.prepare domain first freeId).2 = (other.prepare domain second freeId).2 := by
  have tokens := map_token?_planBlock? first
  rw [words, ← map_token?_planBlock? second] at tokens
  rw [prepare_eq, prepare_eq, Plan.ofTrace, Plan.ofTrace]
  cases announced : planBlock? first with
  | none =>
      rw [announced] at tokens
      rw [Option.map_eq_none_iff.mp tokens.symm]
      exact ⟨.report rfl rfl rfl rfl, rfl⟩
  | some block =>
      rw [announced] at tokens
      obtain ⟨retold, announcedToo, sameTokens⟩ := Option.map_eq_some_iff.mp tokens.symm
      rw [announcedToo]
      dsimp only
      rcases Reading.cases_of_map_quiet (Reading.foldlM_quiet sameTokens.symm rfl) with
        ⟨fault, fails, failsToo⟩ | ⟨final, last, run, again, quiet⟩
      · rw [fails, failsToo]
        exact ⟨.fault fault, rfl⟩
      · have graph := Reading.graph_eq_of_quiet quiet
        have issued : final.warnings.map Warning.unquoted = last.warnings.map Warning.unquoted := by
          rw [Reading.warnings_run run, Reading.warnings_run again]
          exact Reading.issuedAlong_unquoted sameTokens.symm rfl
        rw [run, again]
        refine ⟨.report rfl (congrArg (·.nodes.length) graph) (Reading.nextId_eq_of_quiet quiet)
          issued, ?_⟩
        exact congrArg Session.mk graph

open Text in
/-- Traces with the same words are answered alike. The words of a trace do not show what stands before
the announcement, what follows the time spent and the blank lines; of a step and of spacing they show
whether a lone sigma comes right behind a letter. -/
theorem only_words_matter (domain : Domain) (freeId : Nat) :
    (∀ (session other : Session) (first second : String),
      wordLists? (lines first) = wordLists? (lines second) →
        Alike (session.prepare domain first freeId).1 (other.prepare domain second freeId).1 ∧
          (session.prepare domain first freeId).2 = (other.prepare domain second freeId).2) ∧
    (∀ (trace announcement : String) (preamble block ending : List String),
      lines trace = preamble ++ announcement :: (block ++ ending) →
      (∀ line ∈ preamble, announcesPlan line = false) → announcesPlan announcement = true →
      (∀ line ∈ block, opensWith blockEnd (normalLine line) = false) →
      (∀ line ∈ ending.head?, opensWith blockEnd (normalLine line) = true) →
        wordLists? (lines trace) = some ((block.filter (trim · ≠ "")).map lineWords?)) ∧
    ∀ step rest : String, ':' ∉ step.toList →
      lineWords? (step ++ ":" ++ rest) =
        (some ((words (String.ofList (settled step.toList rest.toList))).map lowercase)).filter
          (· ≠ []) := by
  refine ⟨fun session other _ _ words => prepare_alike session other words, ?_,
    fun step rest absent => lineWords?_eq absent rest⟩
  intro trace announcement preamble block ending cut first announces goesOn ends
  rw [cut]
  exact wordLists?_eq first announces goesOn ends

end Session

def toldTrace : String := "\n".intercalate [planAnnouncement, "0: observe-at r a", "1: pop now"]

def retoldBlock : List String := ["", "step 0:OBSERVE-AT  R\ta", " 1 :Pop  now"]

def retoldTrace : String :=
  "\n".intercalate (["0: pop"] ++ "  FF: Found Legal Plan as follows" ::
    (retoldBlock ++ ["Time Spent: 0", "7: move r b a"]))

theorem retold_alike :
    wordLists? (Text.lines retoldTrace) =
      some ((retoldBlock.filter (Text.trim · ≠ "")).map lineWords?) ∧
    lineWords? "step 0:OBSERVE-AT  R\ta" = some ["observe-at", "r", "a"] ∧
    (({} : Session).prepare .rooms toldTrace 0).1 = .ok ⟨true, 1, 1, [⟨3, .shallowStack "pop now"⟩]⟩ ∧
    Alike (({} : Session).prepare .rooms toldTrace 0).1
      (({} : Session).prepare .rooms retoldTrace 0).1 ∧
    (({} : Session).prepare .rooms toldTrace 0).2 =
      (({} : Session).prepare .rooms retoldTrace 0).2 := by
  obtain ⟨alike, cut, line⟩ := Session.only_words_matter .rooms 0
  have step := line "step 0" "OBSERVE-AT  R\ta" (by decide +kernel)
  refine ⟨?_, ?_, by decide +kernel, alike {} {} toldTrace retoldTrace (by decide +kernel)⟩
  · exact cut retoldTrace "  FF: Found Legal Plan as follows" ["0: pop"] retoldBlock
      ["Time Spent: 0", "7: move r b a"] (by decide +kernel) (by decide +kernel) (by decide +kernel)
      (by decide +kernel) (by decide +kernel)
  · exact step.trans (by decide +kernel)

def Domain.sigma : Domain := (({} : Domain).addOperator "σ" []).addPrecondition "σ" []

def sigmaTrace (step : String) : String :=
  "\n".intercalate [planAnnouncement, step ++ ":Σ", "time spent: 0"]

/-- A letter right before the colon makes the operator end in a final sigma, and it is not known by that
name. -/
theorem step_matters :
    (({} : Session).prepare .sigma (sigmaTrace "0") 0).1 = .ok ⟨true, 1, 1, []⟩ ∧
    (({} : Session).prepare .sigma (sigmaTrace "α") 0).1 =
      .error (.unknownName .operators "ς" ["σ"]) := by
  decide +kernel

end ContingentPlan
