import ContingentPlan.Proofs.Reading.Warnings
import ContingentPlan.Proofs.Text.Deletion
import ContingentPlan.Proofs.Trace.Announcement

/-!
Recoverable anomalies. The lines that had no effect are those with a warning that says so, and without
them the trace gives the same plan; the warnings that are left move up with their lines.
-/

namespace ContingentPlan

theorem blockAmong_filter {items : List String} {start : Nat} {numbers : List Nat}
    (ofBlock : ∀ number ∈ numbers, ∃ line ∈ blockAmong (items.zipIdx start), line.number = number) :
    blockAmong ((items.zipIdx start).filter (·.2 ∉ numbers)) =
      (blockAmong (items.zipIdx start)).filter (·.number ∉ numbers) := by
  have stopKept : ∀ line ∈ (items.zipIdx start).map TraceLine.ofNumbered,
      (!line.ends) = false → decide (line.number ∉ numbers) = true := by
    intro line member ends
    obtain ⟨item, among, rfl⟩ := List.mem_map.mp member
    rw [decide_eq_true_eq]
    intro deleted
    obtain ⟨other, inBlock, number⟩ := ofBlock _ deleted
    obtain ⟨goesOn, second, amongToo, rfl⟩ := mem_blockAmong inBlock
    obtain rfl := eq_of_mem_zipIdx amongToo among number
    rw [goesOn] at ends
    cases ends
  have filtered : ((items.zipIdx start).filter (·.2 ∉ numbers)).map TraceLine.ofNumbered =
      ((items.zipIdx start).map TraceLine.ofNumbered).filter (·.number ∉ numbers) := by
    rw [List.filter_map]
    rfl
  rw [blockAmong, blockAmong, filtered, takeWhile_filter stopKept, List.filter_filter,
    List.filter_filter]
  simp only [Bool.and_comm]

theorem planBlock?_deleteLines {trace : String} {block : List TraceLine} {numbers : List Nat}
    (announced : planBlock? trace = some block) (distinct : numbers.Nodup)
    (ofBlock : ∀ number ∈ numbers, ∃ line ∈ block, line.number = number) :
    planBlock? (Text.deleteLines numbers trace) =
      some ((block.filter (·.number ∉ numbers)).map (TraceLine.renumber (movedUp numbers))) := by
  obtain ⟨preamble, announcement, rest, behind, rfl⟩ := exists_announced announced
  have beyond : ∀ number ∈ numbers, preamble.length + 2 ≤ number := by
    intro number member
    obtain ⟨line, inBlock, rfl⟩ := ofBlock number member
    obtain ⟨-, item, among, rfl⟩ := mem_blockAmong inBlock
    exact List.le_snd_of_mem_zipIdx among
  have none : numbers.countP (· < preamble.length + 2) = 0 := by
    rw [List.countP_eq_zero]
    intro number member
    simpa using beyond number member
  have left : Announced (Text.lines (Text.deleteLines numbers trace)) preamble announcement
      (withoutFrom (preamble.length + 2) numbers rest) := by
    refine ⟨?_, behind.announces, behind.first⟩
    have opening : withoutFrom 1 numbers (preamble ++ [announcement]) = preamble ++ [announcement] := by
      refine withoutFrom_of_beyond fun number member => ?_
      have bound := beyond number member
      simp only [List.length_append, List.length_singleton]
      omega
    rw [Text.lines_deleteLines, behind.lines_eq, List.append_cons, withoutFrom_append, opening,
      List.append_assoc, List.singleton_append]
    simp only [List.length_append, List.length_singleton]
    congr 3
    omega
  have first : movedUp numbers (preamble.length + 2) = preamble.length + 2 := by
    rw [movedUp, none, Nat.sub_zero]
  have counted := zipIdx_withoutFrom distinct rest (by rw [none]; exact Nat.zero_le _)
  rw [first] at counted
  rw [planBlock?_of_announced left, counted, blockAmong_map, blockAmong_filter ofBlock]

def Warning.renumber (move : Nat → Nat) (warning : Warning) : Warning :=
  { warning with line := move warning.line }

namespace Reading

variable {domain : Domain} {first second final : Reading}

theorem issued_renumber (reading : Reading) (move : Nat → Nat) (line : TraceLine) :
    reading.issued (line.renumber move) = (reading.issued line).map (Warning.renumber move) := by
  have token : (line.renumber move).token? = line.token? := rfl
  rw [issued, issued, token]
  cases line.token? with
  | none => rfl
  | some asked =>
      cases asked with
      | ramificate =>
          dsimp only
          split <;> rfl
      | pop =>
          dsimp only
          split <;> rfl
      | shed => rfl
      | assume => rfl
      | action signature =>
          dsimp only
          cases reading.gating <;> rfl

/-- The lines that had no effect among those of a run: a line that is told apart by its number. -/
def Marks (domain : Domain) (reading : Reading) (lines : List TraceLine) (numbers : List Nat) : Prop :=
  ∀ line ∈ lines, line.number ∈ numbers ↔
    ∃ warning ∈ reading.issuedAlong domain lines,
      warning.line = line.number ∧ warning.anomaly.idle = true

theorem Marks.tail {line : TraceLine} {lines : List TraceLine} {numbers : List Nat}
    {middle : Reading} (marks : first.Marks domain (line :: lines) numbers)
    (step : first.step domain line = .ok middle) (below : ∀ other ∈ lines, line.number < other.number) :
    middle.Marks domain lines numbers := by
  intro other member
  rw [marks other (List.mem_cons_of_mem _ member), issuedAlong, step]
  have own : ∀ warning ∈ first.issued line, warning.line ≠ other.number := by
    intro warning issues
    rw [line_of_mem_issued issues]
    exact (below other member).ne
  constructor
  · rintro ⟨warning, issues, number, idle⟩
    rcases List.mem_append.mp issues with here | later
    · exact absurd number (own warning here)
    · exact ⟨warning, later, number, idle⟩
  · rintro ⟨warning, later, number, idle⟩
    exact ⟨warning, List.mem_append_right _ later, number, idle⟩

theorem Marks.head_iff {line : TraceLine} {lines : List TraceLine} {numbers : List Nat}
    (marks : first.Marks domain (line :: lines) numbers)
    (below : ∀ other ∈ lines, line.number < other.number) :
    line.number ∈ numbers ↔ ∃ warning ∈ first.issued line, warning.anomaly.idle = true := by
  rw [marks line List.mem_cons_self, issuedAlong]
  constructor
  · rintro ⟨warning, issues, number, idle⟩
    rcases List.mem_append.mp issues with here | later
    · exact ⟨warning, here, idle⟩
    · split at later
      · obtain ⟨other, member, behind⟩ := line_of_mem_issuedAlong later
        have above := below other member
        omega
      · cases later
  · rintro ⟨warning, here, idle⟩
    exact ⟨warning, List.mem_append_left _ here, line_of_mem_issued here, idle⟩

theorem issued_eq_of_idle {reading : Reading} {line : TraceLine} {warning : Warning}
    (issues : warning ∈ reading.issued line) : reading.issued line = [warning] := by
  rcases reading.issued_at_most_one line with none | ⟨anomaly, one⟩
  · rw [none] at issues
    cases issues
  · rw [one, List.mem_singleton] at issues
    rw [one, issues]

/-- Both runs go on in step: a line without effect is passed over in the second one, any other line is
read there under its new number. -/
theorem foldlM_without {lines : List TraceLine} {numbers : List Nat} (move : Nat → Nat)
    (ascending : lines.Pairwise (·.number < ·.number)) (same : first.quiet = second.quiet)
    (run : lines.foldlM (step domain) first = .ok final)
    (marks : first.Marks domain lines numbers) :
    ∃ rest, ((lines.filter (·.number ∉ numbers)).map (TraceLine.renumber move)).foldlM
        (step domain) second = .ok rest ∧
      final.quiet = rest.quiet ∧
      rest.warnings = second.warnings ++
        ((first.issuedAlong domain lines).filter (!·.anomaly.idle)).map (Warning.renumber move) := by
  induction lines generalizing first second with
  | nil =>
      cases run
      exact ⟨second, rfl, same, by simp [issuedAlong]⟩
  | cons line lines ih =>
      rw [List.foldlM_cons, except_bind_eq_ok] at run
      obtain ⟨middle, step, run⟩ := run
      obtain ⟨below, ascending⟩ := List.pairwise_cons.mp ascending
      have later := marks.tail step below
      rw [issuedAlong, step]
      by_cases deleted : line.number ∈ numbers
      · obtain ⟨warning, issues, idle⟩ := (marks.head_iff below).mp deleted
        have still := quiet_step_of_idle step issues idle
        obtain ⟨rest, again, quiet, warnings⟩ := ih ascending (still.trans same) run later
        refine ⟨rest, ?_, quiet, ?_⟩
        · rw [List.filter_cons_of_neg (by simpa using deleted)]
          exact again
        · rw [warnings, issued_eq_of_idle issues, List.singleton_append,
            List.filter_cons_of_neg (by simp [idle])]
      · have token : line.token? = (line.renumber move).token? := rfl
        obtain ⟨next, stepped, quiet⟩ := exists_step_of_quiet same token step
        obtain ⟨rest, again, quiet, warnings⟩ := ih ascending quiet run later
        have effective : (first.issued line).filter (!·.anomaly.idle) = first.issued line := by
          rw [List.filter_eq_self]
          intro warning issues
          simpa using fun idle => deleted ((marks.head_iff below).mpr ⟨warning, issues, idle⟩)
        refine ⟨rest, ?_, quiet, ?_⟩
        · rw [List.filter_cons_of_pos (by simpa using deleted), List.map_cons, List.foldlM_cons,
            except_bind_eq_ok]
          exact ⟨next, stepped, again⟩
        · rw [warnings, warnings_step stepped, issued_renumber, ← issued_of_quiet same,
            List.append_assoc, List.filter_append, effective, List.map_append]

end Reading

def idleLinesOf (warnings : List Warning) : List Nat :=
  (warnings.filter (·.anomaly.idle)).map (·.line)

def BehindAnnouncement (lines : List String) (number : Nat) : Prop :=
  ∃ preamble announcement rest, Announced lines preamble announcement rest ∧
    preamble.length + 1 < number ∧ number ≤ lines.length

theorem behindAnnouncement_of_mem {trace : String} {block : List TraceLine}
    (announced : planBlock? trace = some block) {line : TraceLine} (member : line ∈ block) :
    BehindAnnouncement (Text.lines trace) line.number := by
  obtain ⟨preamble, announcement, rest, behind, rfl⟩ := exists_announced announced
  obtain ⟨-, item, among, rfl⟩ := mem_blockAmong member
  have above := List.le_snd_of_mem_zipIdx among
  have bound := List.snd_lt_of_mem_zipIdx among
  have length : (Text.lines trace).length = preamble.length + (rest.length + 1) := by
    rw [behind.lines_eq, List.length_append, List.length_cons]
  have number : (TraceLine.ofNumbered item).number = item.2 := rfl
  exact ⟨preamble, announcement, rest, behind, above, by omega⟩

theorem Plan.anomalies_of_ofTrace {domain : Domain} {trace : String} {freeId : Nat} {plan : Plan}
    (read : Plan.ofTrace domain trace freeId = .ok plan) :
    plan.warnings.Pairwise (·.line < ·.line) ∧
    (∀ warning ∈ plan.warnings, BehindAnnouncement (Text.lines trace) warning.line) ∧
    Plan.ofTrace domain (Text.deleteLines (idleLinesOf plan.warnings) trace) freeId = .ok { plan with
      warnings := (plan.warnings.filter (!·.anomaly.idle)).map
        (Warning.renumber (movedUp (idleLinesOf plan.warnings))) } := by
  rcases Plan.reads_of_ofTrace read with ⟨absent, rfl⟩ | ⟨block, reading, announced, run, rfl⟩
  · refine ⟨List.Pairwise.nil, by simp, ?_⟩
    rw [idleLinesOf, List.filter_nil, List.map_nil, Text.deleteLines_nil]
    exact read
  · have ascending := ascending_planBlock? announced
    have issues := Reading.warnings_run run
    rw [List.nil_append] at issues
    have rising : reading.warnings.Pairwise (·.line < ·.line) := by
      rw [issues]
      exact Reading.ascending_issuedAlong ascending
    have ofBlock : ∀ warning ∈ reading.warnings, ∃ line ∈ block, warning.line = line.number := by
      rw [issues]
      exact fun warning => Reading.line_of_mem_issuedAlong
    refine ⟨rising, ?_, ?_⟩
    · intro warning member
      obtain ⟨line, inBlock, number⟩ := ofBlock warning member
      rw [number]
      exact behindAnnouncement_of_mem announced inBlock
    · have distinct : (idleLinesOf reading.warnings).Nodup := by
        rw [idleLinesOf, List.nodup_iff_pairwise_ne, List.pairwise_map]
        exact (rising.filter _).imp fun order => order.ne
      have idleOfBlock : ∀ number ∈ idleLinesOf reading.warnings,
          ∃ line ∈ block, line.number = number := by
        intro number member
        obtain ⟨warning, idle, rfl⟩ := List.mem_map.mp member
        obtain ⟨line, inBlock, same⟩ := ofBlock warning (List.mem_filter.mp idle).1
        exact ⟨line, inBlock, same.symm⟩
      have marks : Reading.Marks domain { nextId := freeId } block
          (idleLinesOf reading.warnings) := by
        intro line _
        rw [← issues]
        simp only [idleLinesOf, List.mem_map, List.mem_filter, and_assoc]
        exact exists_congr fun warning => and_congr_right fun _ => and_comm
      have left := planBlock?_deleteLines announced distinct idleOfBlock
      obtain ⟨rest, again, quiet, warnings⟩ :=
        Reading.foldlM_without (movedUp (idleLinesOf reading.warnings)) ascending rfl run marks
      rw [List.nil_append, ← issues] at warnings
      rw [Plan.ofTrace_of_foldlM left again, ← Reading.graph_eq_of_quiet quiet,
        ← Reading.nextId_eq_of_quiet quiet, warnings]

def hiccupTrace : String :=
  "\n".intercalate ["ff: found legal plan as follows", "0: ramificate", "1: ramificate", "2: pop",
    "3 move r a b", "4: move r a b", "5: ramificate", "6: pop", "7: move r b a", "time spent: 0"]

/-- Without the second branch point, the shallow pop and the line without a colon, the warning of the
last action moves from line 9 to line 6. -/
theorem hiccup_anomalies : ∃ plan, Plan.ofTrace .rooms hiccupTrace 0 = .ok plan ∧
    plan.warnings = [⟨3, .emptyStack "ramificate"⟩, ⟨4, .shallowStack "pop"⟩,
      ⟨5, .malformedLine "3 move r a b"⟩, ⟨9, .missingObservation "move r b a"⟩] ∧
    Plan.ofTrace .rooms (Text.deleteLines [3, 4, 5] hiccupTrace) 0 =
      .ok { plan with warnings := [⟨6, .missingObservation "move r b a"⟩] } := by
  have evaluated : (Plan.ofTrace .rooms hiccupTrace 0).toOption.map (·.warnings) =
      some [⟨3, .emptyStack "ramificate"⟩, ⟨4, .shallowStack "pop"⟩,
        ⟨5, .malformedLine "3 move r a b"⟩, ⟨9, .missingObservation "move r b a"⟩] := by
    decide +kernel
  cases read : Plan.ofTrace .rooms hiccupTrace 0 with
  | error fault =>
      rw [read] at evaluated
      cases evaluated
  | ok plan =>
      rw [read] at evaluated
      have warnings : plan.warnings = _ := Option.some.inj evaluated
      have cleaned := (Plan.anomalies_of_ofTrace read).2.2
      rw [warnings] at cleaned
      exact ⟨plan, rfl, warnings, cleaned⟩

end ContingentPlan
