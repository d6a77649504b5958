import ContingentPlan.Document.Basic
import ContingentPlan.Export

/-!
The document forms of plan data. Reading a form gives back what was written.
-/

namespace ContingentPlan

namespace Binding

def toDocument (binding : Binding) : Document :=
  .fields [("key", .text binding.key), ("value", .text binding.value)]

def ofDocument? (document : Document) : Option Binding := do
  match ← document.fields? ["key", "value"] with
  | [some key, some value] => return { key := ← key.text?, value := ← value.text? }
  | _ => none

end Binding

namespace Knowledge

def label : Knowledge → String
  | .fact => "FACT"
  | .function => "FUNCTION"

def toDocument (kind : Knowledge) : Document := .text kind.label

end Knowledge

namespace EdgeKind

def label : EdgeKind → String
  | .action => "ACTION"
  | .condition => "CONDITION"

def toDocument (kind : EdgeKind) : Document := .text kind.label

end EdgeKind

def Document.choice? {α : Type} (label : α → String) (choices : List α) (document : Document) :
    Option α := do
  match ← document.variant? with
  | (name, none) => choices.find? fun choice => label choice == name
  | (name, some .null) => choices.find? fun choice => label choice == name
  | _ => none

def Knowledge.ofDocument? : Document → Option Knowledge :=
  Document.choice? Knowledge.label [.fact, .function]

def EdgeKind.ofDocument? : Document → Option EdgeKind :=
  Document.choice? EdgeKind.label [.action, .condition]

namespace Condition

def toDocument (condition : Condition) : Document :=
  .fields
    [("kind", condition.kind.toDocument), ("attribute_name", .text condition.name),
     ("is_negative", .boolean condition.negative),
     ("values", .list (condition.values.map Binding.toDocument))]

def ofDocument? (document : Document) : Option Condition := do
  match ← document.fields? ["kind", "attribute_name", "is_negative", "values"] with
  | [some kind, some name, some negative, some values] =>
      return {
        kind := ← Knowledge.ofDocument? kind
        name := ← name.text?
        negative := ← negative.boolean?
        values := ← values.list? Binding.ofDocument? }
  | _ => none

end Condition

namespace Dispatch

def toDocument (dispatch : Dispatch) : Document :=
  .fields
    [("action_id", .ofId dispatch.actionId), ("name", .text dispatch.name),
     ("duration", .real dispatch.duration), ("dispatch_time", .real dispatch.dispatchTime),
     ("parameters", .list (dispatch.parameters.map Binding.toDocument))]

def ofDocument? (document : Document) : Option Dispatch := do
  match ← document.fields? ["action_id", "name", "duration", "dispatch_time", "parameters"] with
  | [some actionId, some name, some duration, some dispatchTime, some parameters] =>
      return {
        actionId := ← actionId.id?
        name := ← name.text?
        duration := ← duration.real?
        dispatchTime := ← dispatchTime.real?
        parameters := ← parameters.list? Binding.ofDocument? }
  | _ => none

end Dispatch

namespace Input

def toDocument (input : Input) : Document :=
  .fields [("edge", .text input.edge), ("awaited", .boolean input.awaited)]

def ofDocument? (document : Document) : Option Input := do
  match ← document.fields? ["edge", "awaited"] with
  | [some edge, some awaited] => return { edge := ← edge.text?, awaited := ← awaited.boolean? }
  | _ => none

end Input

namespace Node

def toDocument (node : Node) : Document :=
  .fields
    [("id", .ofId node.id), ("name", .text node.name),
     ("input", .list (node.input.map Input.toDocument)),
     ("output", .list (node.output.map Document.text)), ("dispatch", node.dispatch.toDocument)]

def ofDocument? (document : Document) : Option Node := do
  match ← document.fields? ["id", "name", "input", "output", "dispatch"] with
  | [some id, some name, some input, some output, some dispatch] =>
      return {
        id := ← id.id?
        name := ← name.text?
        input := ← input.list? Input.ofDocument?
        output := ← output.list? Document.text?
        dispatch := ← Dispatch.ofDocument? dispatch }
  | _ => none

end Node

namespace Edge

def ids (nodes : List Nat) : Document := .list (nodes.map Document.ofId)

def toDocument : Edge → Document
  | .action name sources sinks active =>
      .fields [("Action", .fields
        [("name", .text name), ("sources", ids sources), ("sinks", ids sinks),
         ("active", .boolean active)])]
  | .condition name sinks active =>
      .fields [("Condition", .fields
        [("name", .text name), ("sinks", ids sinks), ("active", .boolean active)])]

def ofAction? (document : Document) : Option Edge := do
  match ← document.fields? ["name", "sources", "sinks", "active"] with
  | [some name, some sources, some sinks, some active] =>
      return .action (← name.text?) (← sources.list? Document.id?) (← sinks.list? Document.id?)
        (← active.boolean?)
  | _ => none

def ofCondition? (document : Document) : Option Edge := do
  match ← document.fields? ["name", "sinks", "active"] with
  | [some name, some sinks, some active] =>
      return .condition (← name.text?) (← sinks.list? Document.id?) (← active.boolean?)
  | _ => none

def ofDocument? (document : Document) : Option Edge := do
  match ← document.variant? with
  | ("Action", some content) => ofAction? content
  | ("Condition", some content) => ofCondition? content
  | _ => none

end Edge

namespace ConditionEntry

def toDocument (entry : ConditionEntry) : Document :=
  .fields [("edge", .text entry.edge), ("condition", entry.condition.toDocument)]

def ofDocument? (document : Document) : Option ConditionEntry := do
  match ← document.fields? ["edge", "condition"] with
  | [some edge, some condition] =>
      return { edge := ← edge.text?, condition := ← Condition.ofDocument? condition }
  | _ => none

end ConditionEntry

namespace Export

def toDocument (plan : Export) : Document :=
  .fields
    [("dispatches", .list (plan.dispatches.map Dispatch.toDocument)),
     ("conditions", .list (plan.conditions.map ConditionEntry.toDocument))]

def ofDocument? (document : Document) : Option Export := do
  match ← document.fields? ["dispatches", "conditions"] with
  | [some dispatches, some conditions] =>
      return {
        dispatches := ← dispatches.list? Dispatch.ofDocument?
        conditions := ← conditions.list? ConditionEntry.ofDocument? }
  | _ => none

end Export

end ContingentPlan
