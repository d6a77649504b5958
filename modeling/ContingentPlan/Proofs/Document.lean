import ContingentPlan.Document.Domain
import ContingentPlan.Document.Plan
import ContingentPlan.Proofs.Json.Grammar
import ContingentPlan.Proofs.Table

/-!
The document forms lose nothing. Each form is writable, and reading it gives back the value; of a record
this follows from the forms of its fields.
-/

namespace ContingentPlan

theorem mapM_map_of_reads {α β : Type} {write : α → β} {read : β → Option α} {items : List α}
    (reads : ∀ item ∈ items, read (write item) = some item) :
    (items.map write).mapM read = some items := by
  induction items with
  | nil => rfl
  | cons item items ih =>
      rw [List.forall_mem_cons] at reads
      rw [List.map_cons, List.mapM_cons, reads.1, ih reads.2]
      rfl

namespace Document

theorem field?_of_mem {entries : List (String × Document)} (distinct : (entries.map Prod.fst).Nodup)
    {entry : String × Document} (member : entry ∈ entries) :
    field? entry.1 (entries.map fun entry => (some entry.1, entry.2)) = some (some entry.2) := by
  obtain ⟨before, after, rfl⟩ := List.append_of_mem member
  rw [List.map_append, List.map_cons, List.nodup_append, List.nodup_cons] at distinct
  obtain ⟨-, ⟨notAfter, -⟩, notBefore⟩ := distinct
  have others : ∀ other ∈ before ++ after, other.1 ≠ entry.1 := by
    intro other member same
    rcases List.mem_append.mp member with earlier | later
    · exact notBefore _ (List.mem_map_of_mem earlier) _ List.mem_cons_self same
    · exact notAfter (same ▸ List.mem_map_of_mem later)
  have none : ∀ part : List (String × Document), part ⊆ before ++ after →
      (part.map fun entry => (some entry.1, entry.2)).filter (·.1 == some entry.1) = [] := by
    intro part inside
    rw [List.filter_eq_nil_iff]
    simp only [List.mem_map, forall_exists_index, and_imp, forall_apply_eq_imp_iff₂, beq_iff_eq,
      Option.some.injEq]
    exact fun other member => others other (inside member)
  rw [field?, List.map_append, List.map_cons, List.filter_append, none before (by simp),
    List.filter_cons, if_pos (by simp), none after (by simp)]
  rfl

theorem field?_eq_lookup {entries : List (String × Document)} (distinct : (entries.map Prod.fst).Nodup)
    (name : String) :
    field? name (entries.map fun entry => (some entry.1, entry.2)) = some (entries.lookup name) := by
  cases found : entries.lookup name with
  | some value =>
      obtain ⟨before, after, rfl, -⟩ := List.lookup_eq_some_iff.mp found
      exact field?_of_mem distinct (by simp : (name, value) ∈ before ++ (name, value) :: after)
  | none =>
      have none : (entries.map fun entry => (some entry.1, entry.2)).filter (·.1 == some name) = [] := by
        rw [List.filter_eq_nil_iff, List.forall_mem_map]
        intro entry member same
        exact absurd (Option.some.inj (beq_iff_eq.mp same)).symm
          (by simpa using List.lookup_eq_none_iff.mp found entry member)
      rw [field?, none]

theorem fields_inj {entries others : List (String × Document)} :
    fields entries = fields others ↔ entries = others := by
  refine ⟨fun same => ?_, congrArg fields⟩
  rw [fields, fields, record.injEq] at same
  refine List.map_injective_iff.mpr ?_ same
  rintro ⟨name, value⟩ ⟨other, others⟩ alike
  simpa using alike

/-- The fields of a record may be looked up in any order, and need not be all that it has. -/
theorem fields?_eq_lookup {entries : List (String × Document)} (distinct : (entries.map Prod.fst).Nodup)
    (names : List String) : (fields entries).fields? names =
      some (names.map fun name => entries.lookup name) := by
  rw [fields, fields?, if_neg (by simp)]
  induction names with
  | nil => rfl
  | cons name names ih =>
      rw [List.mapM_cons, field?_eq_lookup distinct, ih]
      rfl

theorem fields?_fields {names : List String} {entries : List (String × Document)}
    (same : entries.map Prod.fst = names) (distinct : names.Nodup) :
    (fields entries).fields? names = some (entries.map (some ·.2)) := by
  subst same
  have reads : ∀ part ⊆ entries, (part.map Prod.fst).mapM (fun name =>
      field? name (entries.map fun entry => (some entry.1, entry.2))) = some (part.map (some ·.2)) := by
    intro part inside
    induction part with
    | nil => rfl
    | cons entry part ih =>
        rw [List.cons_subset] at inside
        rw [List.map_cons, List.mapM_cons, field?_of_mem distinct inside.1, ih inside.2]
        rfl
  rw [fields, fields?, if_neg (by simp), reads entries (List.Subset.refl entries)]

end Document

def Codec.Returns {α : Type} (codec : Codec) (written : Except String String)
    (read : Document → Option α) (value : α) : Prop :=
  ∃ text, written = .ok text ∧ codec.readAs read text = .ok value

/-- The form of the value is writable, and is read as the value. -/
structure Lossless {α : Type} (levels : Nat) (write : α → Document) (read : Document → Option α)
    (value : α) : Prop where
  writable : Json.Writable levels (write value)
  reads : read (write value) = some value

variable {levels : Nat}

namespace Lossless

theorem text (value : String) : Lossless levels .text Document.text? value := ⟨.text value, rfl⟩

theorem id {number : Nat} (fits : number < Nat.pow 2 64) :
    Lossless levels .ofId Document.id? number where
  writable := .integer fits
  reads := by
    have power : Int.pow 2 64 = (Nat.pow 2 64 : Nat) := rfl
    have bounds : (0 : Int) ≤ number ∧ (number : Int) < Int.pow 2 64 :=
      ⟨Int.natCast_nonneg number, by rw [power]; exact Int.ofNat_lt.mpr fits⟩
    rw [Document.ofId, Document.id?, if_pos bounds, Int.toNat_natCast]

variable {α : Type} {write : α → Document} {read : Document → Option α}

theorem list {items : List α} (each : ∀ item ∈ items, Lossless levels write read item) :
    Lossless (levels + 1) (fun items => .list (items.map write)) (Document.list? read) items where
  writable := .list (List.forall_mem_map.mpr fun item member => (each item member).writable)
  reads := mapM_map_of_reads fun item member => (each item member).reads

theorem table {table : Table String α}
    (each : ∀ entry ∈ table.entries, Lossless levels write read entry.2) :
    Lossless (levels + 1) (Document.ofTable write) (Document.table? read) table where
  writable := .fields (List.forall_mem_map.mpr fun entry member => (each entry member).writable)
  reads := by
    rw [Document.ofTable, Document.fields, Document.table?, List.map_map, mapM_map_of_reads,
      Option.map_some, Table.ofList_entries]
    intro entry member
    simp [Document.named?, (each entry member).reads]

theorem through {json : Codec} (documented : Json.Documented json) {value : α}
    (lossless : Lossless Json.deepest write read value) :
    json.Returns (json.compact (write value)) read value ∧
      json.Returns (json.pretty (write value)) read value := by
  have back {text : String} (denotes : Json.Denotes Json.deepest text.toList (write value)) :
      json.readAs read text = .ok value := by
    rw [Codec.readAs, documented.read text _ denotes]
    dsimp only
    rw [lossless.reads]
  obtain ⟨line, written, denotes⟩ := documented.compact _ lossless.writable
  obtain ⟨lines, writtenToo, denotesToo⟩ := documented.pretty _ lossless.writable
  exact ⟨⟨line, written, back denotes⟩, lines, writtenToo, back denotesToo⟩

end Lossless

variable (levels)

theorem Binding.lossless (binding : Binding) : Lossless (levels + 1) toDocument ofDocument? binding where
  writable := .fields (by simp [Json.Writable.text])
  reads := by
    rw [toDocument, ofDocument?, Document.fields?_fields]
    · rfl
    · rfl
    · decide

theorem Knowledge.lossless (kind : Knowledge) : Lossless levels toDocument ofDocument? kind where
  writable := .text _
  reads := by cases kind <;> rfl

theorem Condition.lossless (condition : Condition) :
    Lossless (levels + 3) toDocument ofDocument? condition := by
  have values := Lossless.list fun binding (_ : binding ∈ condition.values) => binding.lossless levels
  constructor
  · exact .fields (by simp [(condition.kind.lossless (levels + 2)).writable, values.writable, Json.Writable.text,
      Json.Writable.boolean])
  · rw [toDocument, ofDocument?, Document.fields?_fields]
    · simp [(condition.kind.lossless levels).reads, values.reads, Document.text?, Document.boolean?]
    · rfl
    · decide

theorem Input.lossless (input : Input) : Lossless (levels + 1) toDocument ofDocument? input where
  writable := .fields (by simp [Json.Writable.text, Json.Writable.boolean])
  reads := by
    rw [toDocument, ofDocument?, Document.fields?_fields]
    · rfl
    · rfl
    · decide

structure Dispatch.Untimed (dispatch : Dispatch) : Prop where
  duration : dispatch.duration = 0.1
  dispatchTime : dispatch.dispatchTime = 0.0

/-- Stated about any documents: unfolding the form of an id makes the kernel compute the bound of ids. -/
theorem Dispatch.ofDocument?_fields (actionId name duration dispatchTime parameters : Document) :
    ofDocument? (.fields [("action_id", actionId), ("name", name), ("duration", duration),
      ("dispatch_time", dispatchTime), ("parameters", parameters)]) = (do
        return {
          actionId := ← actionId.id?
          name := ← name.text?
          duration := ← duration.real?
          dispatchTime := ← dispatchTime.real?
          parameters := ← parameters.list? Binding.ofDocument? } : Option Dispatch) := by
  rw [ofDocument?, Document.fields?_fields]
  · rfl
  · rfl
  · decide

theorem Dispatch.lossless {dispatch : Dispatch} (fits : dispatch.actionId < Nat.pow 2 64)
    (untimed : dispatch.Untimed) : Lossless (levels + 3) toDocument ofDocument? dispatch := by
  have duration : Json.Writable (levels + 2) (.real dispatch.duration) := untimed.duration ▸ .tenth
  have dispatchTime : Json.Writable (levels + 2) (.real dispatch.dispatchTime) :=
    untimed.dispatchTime ▸ .zero
  have actionId : Lossless (levels + 2) .ofId Document.id? dispatch.actionId := Lossless.id fits
  have parameters := Lossless.list fun binding (_ : binding ∈ dispatch.parameters) =>
    binding.lossless levels
  constructor
  · exact .fields (by simp [actionId.writable, parameters.writable, Json.Writable.text,
      duration, dispatchTime])
  · rw [toDocument, ofDocument?_fields, actionId.reads, parameters.reads]
    rfl

theorem Node.ofDocument?_fields (id name input output dispatch : Document) :
    ofDocument? (.fields [("id", id), ("name", name), ("input", input), ("output", output),
      ("dispatch", dispatch)]) = (do
        return {
          id := ← id.id?
          name := ← name.text?
          input := ← input.list? Input.ofDocument?
          output := ← output.list? Document.text?
          dispatch := ← Dispatch.ofDocument? dispatch } : Option Node) := by
  rw [ofDocument?, Document.fields?_fields]
  · rfl
  · rfl
  · decide

theorem Node.lossless {node : Node} (fits : node.id < Nat.pow 2 64)
    (dispatch : Lossless (levels + 3) Dispatch.toDocument Dispatch.ofDocument? node.dispatch) :
    Lossless (levels + 4) toDocument ofDocument? node := by
  have id : Lossless (levels + 3) .ofId Document.id? node.id := Lossless.id fits
  have input := Lossless.list fun input (_ : input ∈ node.input) => input.lossless (levels + 1)
  have output : Lossless (levels + 3) _ (Document.list? Document.text?) node.output :=
    Lossless.list fun name _ => Lossless.text name
  constructor
  · exact .fields (by simp [id.writable, input.writable, output.writable, dispatch.writable,
      Json.Writable.text])
  · rw [toDocument, ofDocument?_fields, id.reads, input.reads, output.reads, dispatch.reads]
    rfl

namespace Edge

theorem ofDocument?_action (content : Document) :
    ofDocument? (.fields [("Action", content)]) = ofAction? content := rfl

theorem ofDocument?_condition (content : Document) :
    ofDocument? (.fields [("Condition", content)]) = ofCondition? content := rfl

theorem lossless_ids {nodes : List Nat} (fits : ∀ node ∈ nodes, node < Nat.pow 2 64) :
    Lossless (levels + 1) ids (Document.list? Document.id?) nodes :=
  Lossless.list fun node member => Lossless.id (fits node member)

theorem lossless {edge : Edge} (fits : ∀ node ∈ edge.sources ++ edge.sinks, node < Nat.pow 2 64) :
    Lossless (levels + 3) toDocument ofDocument? edge := by
  rw [List.forall_mem_append] at fits
  cases edge with
  | action name sources sinks active =>
      have leaves : Lossless (levels + 1) ids (Document.list? Document.id?) sources := lossless_ids _ fits.1
      have feeds : Lossless (levels + 1) ids (Document.list? Document.id?) sinks := lossless_ids _ fits.2
      have content : Json.Writable (levels + 2) (.fields [("name", .text name), ("sources", ids sources),
          ("sinks", ids sinks), ("active", .boolean active)]) :=
        .fields (by simp [leaves.writable, feeds.writable, Json.Writable.text, Json.Writable.boolean])
      constructor
      · exact .fields (by simpa using content)
      · rw [toDocument, ofDocument?_action, ofAction?, Document.fields?_fields]
        · simp [leaves.reads, feeds.reads, Document.text?, Document.boolean?]
        · rfl
        · decide
  | condition name sinks active =>
      have feeds : Lossless (levels + 1) ids (Document.list? Document.id?) sinks := lossless_ids _ fits.2
      have content : Json.Writable (levels + 2) (.fields [("name", .text name), ("sinks", ids sinks),
          ("active", .boolean active)]) :=
        .fields (by simp [feeds.writable, Json.Writable.text, Json.Writable.boolean])
      constructor
      · exact .fields (by simpa using content)
      · rw [toDocument, ofDocument?_condition, ofCondition?, Document.fields?_fields]
        · simp [feeds.reads, Document.text?, Document.boolean?]
        · rfl
        · decide

end Edge

theorem ConditionEntry.lossless (entry : ConditionEntry) :
    Lossless (levels + 4) toDocument ofDocument? entry where
  writable := .fields (by simp [(entry.condition.lossless levels).writable, Json.Writable.text])
  reads := by
    rw [toDocument, ofDocument?, Document.fields?_fields]
    · simp [(entry.condition.lossless levels).reads, Document.text?]
    · rfl
    · decide

theorem Export.lossless {plan : Export}
    (each : ∀ dispatch ∈ plan.dispatches,
      Lossless (levels + 4) Dispatch.toDocument Dispatch.ofDocument? dispatch) :
    Lossless (levels + 6) toDocument ofDocument? plan := by
  have dispatches := Lossless.list each
  have conditions := Lossless.list fun entry (_ : entry ∈ plan.conditions) => entry.lossless levels
  constructor
  · exact .fields (by simp [dispatches.writable, conditions.writable])
  · rw [toDocument, ofDocument?, Document.fields?_fields]
    · simp [dispatches.reads, conditions.reads]
    · rfl
    · decide

namespace Domain

theorem lossless_labels (table : Table String (List String)) :
    Lossless (levels + 2) labelsTable (Document.table? readLabels?) table :=
  Lossless.table fun _ _ => Lossless.list fun label _ => Lossless.text label

theorem lossless_tuples (table : Table String (List ConditionTuple)) :
    Lossless (levels + 3)
      (Document.ofTable fun tuples => .list (tuples.map fun tuple => .list (tuple.map .text)))
      (Document.table? readTuples?) table :=
  Lossless.table fun _ _ => Lossless.list fun _ _ => Lossless.list fun label _ => Lossless.text label

theorem lossless (domain : Domain) : Lossless (levels + 4) toDocument ofDocument? domain where
  writable := .fields (by simp [(lossless_labels (levels + 1) _).writable,
    (lossless_tuples levels _).writable])
  reads := by
    rw [toDocument, ofDocument?, Document.fields?_fields]
    · simp [readTable?, (lossless_labels levels _).reads, (lossless_tuples levels _).reads]
    · rfl
    · decide

end Domain

end ContingentPlan
