import ContingentPlan.Table

/-!
Structured documents, as JSON and TOML texts hold them, and the readers of their parts. A record
with declared fields may hold further ones, which are passed over, but none of the declared ones
twice; it may also stand as the list of its fields in their declared order.
-/

namespace ContingentPlan

inductive Document
  | null
  | boolean (value : Bool)
  | integer (value : Int)
  | real (value : Float)
  | text (value : String)
  | list (elements : List Document)
  /-- Entries in order. A missing name is one that cannot be written as text. -/
  | record (entries : List (Option String × Document))
  | unusable

namespace Document

def fields (entries : List (String × Document)) : Document :=
  .record (entries.map fun entry => (some entry.1, entry.2))

def ofId (id : Nat) : Document := .integer id

def ofTable {α : Type} (write : α → Document) (table : Table String α) : Document :=
  fields (table.entries.map fun entry => (entry.1, write entry.2))

def boolean? : Document → Option Bool
  | .boolean value => some value
  | _ => none

def text? : Document → Option String
  | .text value => some value
  | _ => none

def id? : Document → Option Nat
  | .integer value => if 0 ≤ value ∧ value < Int.pow 2 64 then some value.toNat else none
  | _ => none

def real? : Document → Option Float
  | .integer value => some (Float.ofInt value)
  | .real value => some value
  | _ => none

def list? {α : Type} (read : Document → Option α) : Document → Option (List α)
  | .list elements => elements.mapM read
  | _ => none

def named? {α : Type} (read : Document → Option α) (entry : Option String × Document) :
    Option (String × α) := do
  return (← entry.1, ← read entry.2)

/-- A table of named values; a name that comes again replaces the value in its place. -/
def table? {α : Type} (read : Document → Option α) : Document → Option (Table String α)
  | .record entries => (entries.mapM (named? read)).map Table.ofList
  | _ => none

def field? (name : String) (entries : List (Option String × Document)) :
    Option (Option Document) :=
  match entries.filter (·.1 == some name) with
  | [] => some none
  | [entry] => some (some entry.2)
  | _ => none

def fields? (names : List String) : Document → Option (List (Option Document))
  | .record entries =>
      if entries.any (·.1.isNone) then none else names.mapM fun name => field? name entries
  | .list elements =>
      if names.length < elements.length then none
      else some (elements.map some ++ List.replicate (names.length - elements.length) none)
  | _ => none

def variant? : Document → Option (String × Option Document)
  | .text name => some (name, none)
  | .record [(some name, content)] => some (name, some content)
  | _ => none

end Document

end ContingentPlan
