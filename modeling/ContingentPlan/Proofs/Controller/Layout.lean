import ContingentPlan.Proofs.Controller.Listing

/-!
The text of a controller, row by row. A controller whose names are identifiers is read back from its
text: one listing for the plan module and one for each action module, with all lists of names in order.
-/

namespace ContingentPlan

namespace Row

def blank : Row := { margin := "", line := .mark "" }

def ofModule (name : String) (body : List Row) : List Row :=
  { margin := "", line := .header name } :: (body ++ [{ margin := "", line := .finish }, blank])

def interface (inputs outputs : List String) : List Row :=
  [{ margin := "", line := .clause { keyword := .input, names := inputs }, ended := true },
    { margin := "", line := .clause { keyword := .output, names := outputs }, ended := true }, blank]

def sequence : List Clause → List Row
  | [] => []
  | [clause] => [{ margin := "  ", line := .clause clause }]
  | clause :: clauses => { margin := "  ", line := .clause clause, ended := true } :: sequence clauses

end Row

namespace ActionModule

def awaitClause : List String → List Clause
  | [] => []
  | names => [{ keyword := .await, names }]

def clauses (action : ActionModule) : List Clause :=
  awaitClause action.inputs ++ [{ keyword := .emit, names := [action.dispatch] },
    { keyword := .await, names := [action.complete] }]
    ++ action.outputs.map fun output => { keyword := .emit, names := [output] }

def listing (action : ActionModule) : Listing where
  name := action.name
  clauses := { keyword := .input, names := action.inputs ++ [action.complete] } ::
    { keyword := .output, names := action.outputs ++ [action.dispatch] } :: action.clauses

def rows (action : ActionModule) : List Row :=
  Row.ofModule action.name
    (Row.interface (action.inputs ++ [action.complete]) (action.outputs ++ [action.dispatch])
      ++ Row.sequence action.clauses)

structure Legal (action : ActionModule) : Prop where
  name : Text.IsIdentifier action.name
  dispatch : Text.IsIdentifier action.dispatch
  complete : Text.IsIdentifier action.complete
  inputs : ∀ input ∈ action.inputs, Text.IsIdentifier input
  outputs : ∀ output ∈ action.outputs, Text.IsIdentifier output

end ActionModule

namespace Controller

def inputs (controller : Controller) : List String :=
  "SOURCE" :: controller.actions.map ActionModule.complete

def outputs (controller : Controller) : List String :=
  "SINK" :: controller.actions.map ActionModule.dispatch

def runClause (action : ActionModule) : Clause := { keyword := .run, names := [action.name] }

def runs (margin : String) : List ActionModule → List Row
  | [] => [{ margin, line := .mark "nothing" }]
  | [action] => [{ margin, line := .clause (runClause action) }]
  | actions =>
      { margin, line := .mark "[" } ::
        ((actions.map fun action => { margin := margin ++ "  ", line := .clause (runClause action) : Row })
          |>.intersperse { margin, line := .mark "||" })
        ++ [{ margin, line := .mark "]" }]

def body (controller : Controller) : List Row :=
  if controller.signals.isEmpty then runs "  " controller.actions
  else
    { margin := "  ", line := .clause { keyword := .signal, names := controller.signals } } ::
      runs "    " controller.actions ++ [{ margin := "  ", line := .mark "end signal" }]

def rows (controller : Controller) : List Row :=
  Row.ofModule "plan" (Row.interface controller.inputs controller.outputs ++ controller.body)
    ++ controller.actions.flatMap ActionModule.rows

def signalClause : List String → List Clause
  | [] => []
  | names => [{ keyword := .signal, names }]

def listing (controller : Controller) : Listing where
  name := "plan"
  clauses := { keyword := .input, names := controller.inputs } ::
    { keyword := .output, names := controller.outputs } ::
    (signalClause controller.signals ++ controller.actions.map runClause)

structure Legal (controller : Controller) : Prop where
  signals : ∀ signal ∈ controller.signals, Text.IsIdentifier signal
  actions : ∀ action ∈ controller.actions, action.Legal

end Controller

namespace Row

def joined (rows : List Row) : String := Text.joinLines (rows.map text)

theorem joined_cons (row : Row) (rows : List Row) :
    joined (row :: rows) = row.text ++ "\n" ++ joined rows :=
  Text.joinLines_cons row.text (rows.map text)

theorem joined_append (first second : List Row) :
    joined (first ++ second) = joined first ++ joined second := by
  rw [joined, List.map_append, Text.joinLines_append, joined, joined]

theorem joined_ofModule (name : String) (body : List Row) :
    joined (ofModule name body) =
      "module " ++ name ++ ":\n" ++ joined body ++ "end module\n\n" := by
  simp [ofModule, joined, Text.joinLines, text, Line.text, blank,
    String.append_assoc]

theorem joined_interface (inputs outputs : List String) :
    joined (interface inputs outputs) =
      "input " ++ commaSeparated inputs ++ ";\n" ++
        ("output " ++ commaSeparated outputs ++ ";\n\n") := by
  simp [interface, joined, Text.joinLines, text, Line.text, Clause.text, Clause.list, Keyword.word,
    blank, String.append_assoc]

theorem joined_sequence {clauses : List Clause} (nonempty : clauses ≠ []) :
    joined (sequence clauses) =
      ";\n".intercalate (clauses.map fun clause => "  " ++ clause.text) ++ "\n" := by
  induction clauses with
  | nil => exact absurd rfl nonempty
  | cons clause clauses ih =>
      cases clauses with
      | nil => simp [sequence, joined, Text.joinLines, text, Line.text]
      | cons second clauses =>
          rw [sequence, joined_cons, ih (by simp)]
          · simp [text, Line.text, String.append_assoc]
          · simp

end Row

namespace ActionModule

theorem map_text_awaitClause (inputs : List String) :
    (awaitClause inputs).map Clause.text = awaitStatement inputs := by
  match inputs with
  | [] => rfl
  | [input] =>
      simp [awaitClause, awaitStatement, Clause.text, Clause.list, Clause.alternatives, Keyword.word]
  | first :: second :: inputs =>
      simp [awaitClause, awaitStatement, Clause.text, Clause.list, Clause.alternatives, Keyword.word,
        ← String.toList_inj]

theorem statements_eq (action : ActionModule) :
    action.statements = action.clauses.map Clause.text := by
  simp [statements, clauses, map_text_awaitClause, Clause.text, Clause.list, Clause.alternatives,
    Keyword.word, commaSeparated]

theorem render_eq (action : ActionModule) : action.render = Row.joined action.rows := by
  have nonempty : action.clauses ≠ [] := by simp [clauses]
  rw [rows, Row.joined_ofModule, Row.joined_append, Row.joined_interface,
    Row.joined_sequence nonempty]
  unfold render
  rw [statements_eq, List.map_map, ← String.toList_inj]
  simp [Function.comp_def]

end ActionModule

namespace Controller

theorem joined_intersperse (bar : Row) (rows : List Row) :
    Row.joined (rows.intersperse bar) =
      (bar.text ++ "\n").intercalate (rows.map fun row => row.text ++ "\n") := by
  induction rows with
  | nil => rfl
  | cons row rows ih =>
      cases rows with
      | nil => simp [Row.joined, Text.joinLines]
      | cons second rows =>
          rw [List.intersperse_cons_cons, Row.joined_cons, Row.joined_cons, ih]
          simp [String.append_assoc]

theorem joined_runs (margin : String) (actions : List ActionModule) :
    Row.joined (runs margin actions) = runStatement margin actions := by
  have run (margin : String) (action : ActionModule) :
      Row.text { margin, line := .clause (runClause action) } = margin ++ "run " ++ action.name := by
    simp [Row.text, Line.text, runClause, Clause.text, Clause.list, Keyword.word, commaSeparated,
      String.append_assoc]
  rcases actions with _ | ⟨first, _ | ⟨second, actions⟩⟩
  · simp [runs, runStatement, Row.joined, Text.joinLines, Row.text, Line.text, String.append_assoc]
  · simp [runs, runStatement, Row.joined, Text.joinLines, run]
  · rw [runs, runStatement, Row.joined_append, Row.joined_cons, joined_intersperse, List.map_map]
    · simp only [Function.comp_def, run]
      simp [Row.joined, Text.joinLines, Row.text, Line.text, String.append_assoc]
    all_goals simp

theorem joined_body (controller : Controller) :
    Row.joined controller.body = controller.planBody := by
  rw [body, planBody]
  split
  · exact joined_runs "  " controller.actions
  · rw [Row.joined_append, Row.joined_cons, joined_runs, ← String.toList_inj]
    simp [Row.joined, Text.joinLines, Row.text, Line.text, Clause.text, Clause.list, Keyword.word]

theorem joined_flatMap_rows (actions : List ActionModule) :
    Row.joined (actions.flatMap ActionModule.rows) =
      String.join (actions.map ActionModule.render) := by
  induction actions with
  | nil => rfl
  | cons action actions ih =>
      rw [List.flatMap_cons, Row.joined_append, ih, List.map_cons, String.join_cons,
        action.render_eq]

theorem renderPlan_eq (controller : Controller) :
    controller.renderPlan = Row.joined (Row.ofModule "plan"
      (Row.interface controller.inputs controller.outputs ++ controller.body)) := by
  have opening : "module plan:\n" = "module " ++ "plan" ++ ":\n" := by decide +kernel
  rw [Row.joined_ofModule, Row.joined_append, Row.joined_interface, joined_body]
  unfold renderPlan inputs outputs
  rw [opening]
  simp only [String.append_assoc]

theorem render_eq (controller : Controller) : controller.render = Row.joined controller.rows := by
  rw [rows, Row.joined_append, joined_flatMap_rows, ← renderPlan_eq, render]

end Controller

namespace Row

def clauses (rows : List Row) : List Clause := rows.filterMap (·.line.clause?)

/-- A row that can be read and may stand within a module. -/
structure Inner (row : Row) : Prop where
  legal : row.Legal
  inner : row.line.isInner = true

theorem inner_mark {margin text : String} (blanks : ∀ character ∈ margin.toList, character = ' ')
    (known : text ∈ Line.marks) (ended : Bool) :
    Inner { margin, line := .mark text, ended } where
  legal := { margin := blanks, line := known }
  inner := rfl

theorem inner_clause {margin : String} (blanks : ∀ character ∈ margin.toList, character = ' ')
    {clause : Clause} (legal : clause.Legal) (ended : Bool) :
    Inner { margin, line := .clause clause, ended } where
  legal := { margin := blanks, line := legal }
  inner := rfl

theorem legal_ofModule {name : String} {body : List Row} (legal : Text.IsIdentifier name)
    (inner : ∀ row ∈ body, row.Inner) : ∀ row ∈ ofModule name body, row.Legal := by
  intro row member
  simp only [ofModule, List.mem_cons, List.mem_append, List.not_mem_nil, or_false] at member
  rcases member with rfl | within | rfl | rfl
  · exact { margin := by simp, line := legal }
  · exact (inner row within).legal
  · exact { margin := by simp, line := trivial }
  · exact (inner_mark (by simp) (by decide) false).legal

/-- A module is read as one listing, and the reading goes on behind it. -/
theorem ofLines?_ofModule (name : String) {body : List Row} (inner : ∀ row ∈ body, row.Inner)
    (rest : List Line) :
    Listing.ofLines? none ((ofModule name body).map line ++ rest) =
      (Listing.ofLines? none rest).map ({ name, clauses := clauses body } :: ·) := by
  have within : ∀ line ∈ body.map Row.line, line.isInner = true := by
    intro line member
    obtain ⟨row, among, rfl⟩ := List.mem_map.mp member
    exact (inner row among).inner
  have gathered : body.filterMap (Line.clause? ∘ Row.line) = clauses body := rfl
  rw [ofModule, List.map_cons, List.cons_append, Listing.ofLines?, List.map_append, List.append_assoc,
    Listing.ofLines?_append within, List.filterMap_map, gathered]
  simp [Listing.ofLines?, blank]

theorem inner_interface {inputs outputs : List String}
    (legalInputs : Clause.Legal { keyword := .input, names := inputs })
    (legalOutputs : Clause.Legal { keyword := .output, names := outputs }) :
    ∀ row ∈ interface inputs outputs, row.Inner := by
  intro row member
  simp only [interface, List.mem_cons, List.not_mem_nil, or_false] at member
  rcases member with rfl | rfl | rfl
  · exact inner_clause (by simp) legalInputs true
  · exact inner_clause (by simp) legalOutputs true
  · exact inner_mark (by simp) (by decide) false

theorem inner_sequence {sequenced : List Clause} (legal : ∀ clause ∈ sequenced, clause.Legal) :
    ∀ row ∈ sequence sequenced, row.Inner := by
  induction sequenced with
  | nil => simp [sequence]
  | cons clause sequenced ih =>
      have first := legal clause List.mem_cons_self
      have later := ih fun clause member => legal clause (List.mem_cons_of_mem _ member)
      intro row member
      cases sequenced with
      | nil =>
          rw [sequence, List.mem_singleton] at member
          rw [member]
          exact inner_clause (by simp) first false
      | cons second sequenced =>
          rw [sequence] at member
          · rcases List.mem_cons.mp member with rfl | behind
            · exact inner_clause (by simp) first true
            · exact later row behind
          · simp

theorem clauses_sequence (sequenced : List Clause) : clauses (sequence sequenced) = sequenced := by
  induction sequenced with
  | nil => rfl
  | cons clause sequenced ih =>
      cases sequenced with
      | nil => rfl
      | cons second sequenced =>
          rw [sequence]
          · simpa [clauses, Line.clause?] using ih
          · simp

end Row

namespace ActionModule

variable {action : ActionModule}

theorem flatMap_awaitClause (names : List String) (keyword : Keyword) :
    ((awaitClause names).flatMap fun clause =>
      if clause.keyword = keyword then clause.names else []) =
      if .await = keyword then names else [] := by
  cases names <;> simp [awaitClause]

theorem Legal.clauses (legal : action.Legal) : ∀ clause ∈ action.clauses, clause.Legal := by
  intro clause member
  simp only [ActionModule.clauses, List.mem_append, List.mem_cons, List.not_mem_nil, or_false,
    List.mem_map] at member
  rcases member with (awaited | rfl | rfl) | ⟨output, among, rfl⟩
  · cases inputs : action.inputs with
    | nil => simp [awaitClause, inputs] at awaited
    | cons first rest =>
        rw [awaitClause, List.mem_singleton] at awaited
        · rw [awaited]
          exact ⟨by simp [inputs], legal.inputs⟩
        · simp [inputs]
  · exact ⟨by simp, by simpa using legal.dispatch⟩
  · exact ⟨by simp, by simpa using legal.complete⟩
  · exact ⟨by simp, by simpa using legal.outputs output among⟩

theorem Legal.inner (legal : action.Legal) :
    ∀ row ∈ Row.interface (action.inputs ++ [action.complete]) (action.outputs ++ [action.dispatch])
      ++ Row.sequence action.clauses, row.Inner := by
  have extended {names : List String} {last : String}
      (legalNames : ∀ name ∈ names, Text.IsIdentifier name) (legalLast : Text.IsIdentifier last) :
      names ++ [last] ≠ [] ∧ ∀ name ∈ names ++ [last], Text.IsIdentifier name := by
    refine ⟨by simp, ?_⟩
    intro name member
    rcases List.mem_append.mp member with among | single
    · exact legalNames name among
    · rw [List.mem_singleton.mp single]
      exact legalLast
  intro row member
  rcases List.mem_append.mp member with declared | stated
  · exact Row.inner_interface (extended legal.inputs legal.complete)
      (extended legal.outputs legal.dispatch) row declared
  · exact Row.inner_sequence legal.clauses row stated

theorem names_listing (action : ActionModule) (keyword : Keyword) :
    action.listing.names keyword =
      match keyword with
      | .input => action.inputs ++ [action.complete]
      | .output => action.outputs ++ [action.dispatch]
      | .await => action.inputs ++ [action.complete]
      | .emit => action.dispatch :: action.outputs
      | _ => [] := by
  cases keyword <;>
    simp [Listing.names, listing, clauses, flatMap_awaitClause, List.flatMap_map]

theorem ofLines?_rows (legal : action.Legal) (rest : List Line) :
    Listing.ofLines? none (action.rows.map Row.line ++ rest) =
      (Listing.ofLines? none rest).map (action.listing :: ·) := by
  have clauses : Row.clauses
      (Row.interface (action.inputs ++ [action.complete]) (action.outputs ++ [action.dispatch])
        ++ Row.sequence action.clauses) = action.listing.clauses := by
    rw [Row.clauses, List.filterMap_append]
    change _ ++ Row.clauses _ = _
    rw [Row.clauses_sequence]
    rfl
  rw [rows, Row.ofLines?_ofModule action.name legal.inner, clauses]
  rfl

end ActionModule

namespace Controller

theorem mem_of_mem_intersperse {bar row : Row} {rows : List Row}
    (member : row ∈ rows.intersperse bar) : row = bar ∨ row ∈ rows := by
  induction rows with
  | nil => cases member
  | cons first rows ih =>
      cases rows with
      | nil => exact Or.inr member
      | cons second rows =>
          rw [List.intersperse_cons_cons, List.mem_cons, List.mem_cons] at member
          rcases member with rfl | rfl | later
          · exact Or.inr List.mem_cons_self
          · exact Or.inl rfl
          · exact (ih later).imp_right (List.mem_cons_of_mem first)

theorem clauses_intersperse {bar : Row} (silent : bar.line.clause? = none) (rows : List Row) :
    Row.clauses (rows.intersperse bar) = Row.clauses rows := by
  induction rows with
  | nil => rfl
  | cons first rows ih =>
      cases rows with
      | nil => rfl
      | cons second rows =>
          rw [List.intersperse_cons_cons]
          simp only [Row.clauses, List.filterMap_cons, silent] at ih ⊢
          rw [ih]

theorem clauses_runs (margin : String) (actions : List ActionModule) :
    Row.clauses (runs margin actions) = actions.map runClause := by
  match actions with
  | [] => rfl
  | [action] => rfl
  | first :: second :: actions =>
      rw [runs, Row.clauses, List.filterMap_append, List.filterMap_cons_none rfl]
      · change Row.clauses _ ++ _ = _
        rw [clauses_intersperse rfl, Row.clauses, List.filterMap_map]
        simp [Function.comp_def, Line.clause?]
      all_goals simp

theorem inner_runs {margin : String} (blanks : ∀ character ∈ margin.toList, character = ' ')
    {actions : List ActionModule} (legal : ∀ action ∈ actions, action.Legal) :
    ∀ row ∈ runs margin actions, row.Inner := by
  have named : ∀ action ∈ actions, (runClause action).Legal :=
    fun action member =>
      ⟨by simp [runClause], by simpa [runClause] using (legal action member).name⟩
  have deeper : ∀ character ∈ (margin ++ "  ").toList, character = ' ' := by
    intro character member
    rw [String.toList_append, List.mem_append] at member
    rcases member with outer | added
    · exact blanks character outer
    · simpa using added
  intro row member
  match actions with
  | [] =>
      rw [runs, List.mem_singleton] at member
      rw [member]
      exact Row.inner_mark blanks (by decide) false
  | [action] =>
      rw [runs, List.mem_singleton] at member
      rw [member]
      exact Row.inner_clause blanks (named action List.mem_cons_self) false
  | first :: second :: actions =>
      rw [runs, List.cons_append, List.mem_cons, List.mem_append, List.mem_singleton] at member
      · rcases member with rfl | among | rfl
        · exact Row.inner_mark blanks (by decide) false
        · rcases mem_of_mem_intersperse among with rfl | run
          · exact Row.inner_mark blanks (by decide) false
          · obtain ⟨action, listed, rfl⟩ := List.mem_map.mp run
            exact Row.inner_clause deeper (named action listed) false
        · exact Row.inner_mark blanks (by decide) false
      all_goals simp

variable {controller : Controller}

theorem clauses_body (controller : Controller) :
    Row.clauses controller.body =
      signalClause controller.signals ++ controller.actions.map runClause := by
  rw [body]
  cases signals : controller.signals with
  | nil => exact clauses_runs "  " controller.actions
  | cons first rest =>
      rw [if_neg (by simp), Row.clauses, List.filterMap_append, List.filterMap_cons]
      change _ :: Row.clauses _ ++ [] = _
      rw [clauses_runs, List.append_nil]
      · rfl

theorem Legal.inner (legal : controller.Legal) :
    ∀ row ∈ Row.interface controller.inputs controller.outputs ++ controller.body, row.Inner := by
  have inputs : Clause.Legal { keyword := .input, names := controller.inputs } := by
    refine ⟨by simp [Controller.inputs], ?_⟩
    intro name member
    rcases List.mem_cons.mp member with rfl | complete
    · decide +kernel
    · obtain ⟨action, listed, rfl⟩ := List.mem_map.mp complete
      exact (legal.actions action listed).complete
  have outputs : Clause.Legal { keyword := .output, names := controller.outputs } := by
    refine ⟨by simp [Controller.outputs], ?_⟩
    intro name member
    rcases List.mem_cons.mp member with rfl | dispatch
    · decide +kernel
    · obtain ⟨action, listed, rfl⟩ := List.mem_map.mp dispatch
      exact (legal.actions action listed).dispatch
  intro row member
  rcases List.mem_append.mp member with declared | stated
  · exact Row.inner_interface inputs outputs row declared
  · rw [body] at stated
    split at stated
    · exact inner_runs (by simp) legal.actions row stated
    · rename_i declares
      rw [List.cons_append, List.mem_cons, List.mem_append, List.mem_singleton] at stated
      rcases stated with rfl | run | rfl
      · exact Row.inner_clause (by simp) ⟨by simpa using declares, legal.signals⟩ false
      · exact inner_runs (by simp) legal.actions row run
      · exact Row.inner_mark (by simp) (by decide) false

theorem ofLines?_flatMap_rows {actions : List ActionModule}
    (legal : ∀ action ∈ actions, action.Legal) :
    Listing.ofLines? none ((actions.flatMap ActionModule.rows).map Row.line) =
      some (actions.map ActionModule.listing) := by
  induction actions with
  | nil => rfl
  | cons action actions ih =>
      have later := ih fun action member => legal action (List.mem_cons_of_mem _ member)
      rw [List.flatMap_cons, List.map_append,
        ActionModule.ofLines?_rows (legal action List.mem_cons_self), later]
      rfl

theorem flatMap_signalClause (names : List String) (keyword : Keyword) :
    ((signalClause names).flatMap fun clause =>
      if clause.keyword = keyword then clause.names else []) =
      if .signal = keyword then names else [] := by
  cases names <;> simp [signalClause]

theorem names_listing (controller : Controller) (keyword : Keyword) :
    controller.listing.names keyword =
      match keyword with
      | .input => controller.inputs
      | .output => controller.outputs
      | .signal => controller.signals
      | .run => controller.actions.map ActionModule.name
      | _ => [] := by
  have run : (controller.actions.flatMap fun action => [action.name]) =
      controller.actions.map ActionModule.name := List.map_eq_flatMap.symm
  cases keyword <;>
    simp [Listing.names, listing, flatMap_signalClause, runClause, List.flatMap_map, run]

theorem Legal.rows (legal : controller.Legal) : ∀ row ∈ controller.rows, row.Legal := by
  intro row member
  rcases List.mem_append.mp member with plan | among
  · exact Row.legal_ofModule (by decide +kernel) legal.inner row plan
  · obtain ⟨action, listed, own⟩ := List.mem_flatMap.mp among
    have legalAction := legal.actions action listed
    exact Row.legal_ofModule legalAction.name legalAction.inner row own

theorem ascii_render (legal : controller.Legal) :
    ∀ character ∈ controller.render.toList, character.toNat < 0x80 := by
  rw [render_eq, Row.joined]
  exact Row.ascii_joinLines legal.rows

/-- A controller is read back from its text. -/
theorem ofProgram?_render (legal : controller.Legal) :
    Listing.ofProgram? controller.render =
      some (controller.listing :: controller.actions.map ActionModule.listing) := by
  have clauses : Row.clauses (Row.interface controller.inputs controller.outputs
      ++ controller.body) = controller.listing.clauses := by
    rw [Row.clauses, List.filterMap_append]
    change _ ++ Row.clauses _ = _
    rw [clauses_body]
    rfl
  rw [render_eq, Row.joined, Row.ofProgram?_joinLines legal.rows, Controller.rows, List.map_append,
    Row.ofLines?_ofModule "plan" legal.inner, ofLines?_flatMap_rows legal.actions, clauses]
  rfl

end Controller

end ContingentPlan
