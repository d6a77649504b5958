import ContingentPlan.Document.Basic

/-!
The tree of tables that the statements of a TOML text build up. How a table came about decides how
it may be extended: a table that only stood above another one may still get a header, and one that
was made by a dotted key grows by dotted keys alone.
-/

namespace ContingentPlan.Toml

inductive Origin
  | header
  | implied
  | dotted
deriving DecidableEq

inductive Item
  | leaf (value : Document)
  | table (origin : Origin) (entries : List (String × Item))
  | tables (elements : List (List (String × Item)))

abbrev Entries := List (String × Item)

namespace Entries

def update (key : String) (change : Option Item → Option Item) : Entries → Option Entries
  | [] => (change none).map fun item => [(key, item)]
  | (name, item) :: rest =>
      if name = key then (change (some item)).map fun item => (name, item) :: rest
      else (update key change rest).map ((name, item) :: ·)

/-- Changes the table to which a path leads. Tables that are missing on the way are made, and in an
array of tables the way goes on in the last one. -/
def within (change : Entries → Option Entries) : List String → Entries → Option Entries
  | [], entries => change entries
  | key :: path, entries =>
      entries.update key fun item =>
        match item with
        | none => (within change path []).map (.table .implied)
        | some (.table origin inner) => (within change path inner).map (.table origin)
        | some (.tables (last :: earlier)) =>
            (within change path last).map fun last => .tables (last :: earlier)
        | some _ => none

def openTable (key : String) (entries : Entries) : Option Entries :=
  entries.update key fun item =>
    match item with
    | none => some (.table .header [])
    | some (.table .implied inner) => some (.table .header inner)
    | some _ => none

def openElement (key : String) (entries : Entries) : Option Entries :=
  entries.update key fun item =>
    match item with
    | none => some (.tables [[]])
    | some (.tables elements) => some (.tables ([] :: elements))
    | some _ => none

def insertPair (value : Document) : List String → Entries → Option Entries
  | [], _ => none
  | [key], entries =>
      entries.update key fun item => if item.isNone then some (.leaf value) else none
  | key :: next :: rest, entries =>
      entries.update key fun item =>
        match item with
        | none => (insertPair value (next :: rest) []).map (.table .dotted)
        | some (.table .dotted inner) =>
            (insertPair value (next :: rest) inner).map (.table .dotted)
        | some (.table .implied inner) =>
            if rest.isEmpty then none
            else (insertPair value (next :: rest) inner).map (.table .implied)
        | some (.tables (last :: earlier)) =>
            if rest.isEmpty then none
            else (insertPair value (next :: rest) last).map fun last => .tables (last :: earlier)
        | some _ => none

end Entries

mutual

def Item.toDocument : Item → Document
  | .leaf value => value
  | .table _ entries => .record (fieldsOfEntries entries)
  | .tables elements => .list (documentsOfElements elements).reverse

def fieldsOfEntries : List (String × Item) → List (Option String × Document)
  | [] => []
  | (name, item) :: rest => (some name, item.toDocument) :: fieldsOfEntries rest

def documentsOfElements : List (List (String × Item)) → List Document
  | [] => []
  | entries :: rest => .record (fieldsOfEntries entries) :: documentsOfElements rest

end

def Entries.toDocument (entries : Entries) : Document := .record (fieldsOfEntries entries)

end ContingentPlan.Toml
