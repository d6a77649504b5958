import ContingentPlan.Toml.Statement

/-!
Reading TOML texts. A header sends the pairs that follow it into its table, and the document is the
tree that all statements have built.
-/

namespace ContingentPlan.Toml

structure Building where
  entries : Entries := []
  current : List String := []

namespace Building

def openAt (building : Building) (keys : List String) (make : String → Entries → Option Entries) :
    Option Building := do
  let key ← keys.getLast?
  let entries ← building.entries.within (make key) keys.dropLast
  return { entries, current := keys }

def add (building : Building) : Statement → Option Building
  | .pair keys value =>
      (building.entries.within (Entries.insertPair value keys) building.current).map fun entries =>
        { building with entries }
  | .header keys => building.openAt keys Entries.openTable
  | .elementHeader keys => building.openAt keys Entries.openElement

end Building

def dropByteOrderMark : List Char → List Char
  | '\uFEFF' :: rest => rest
  | text => text

def read? (text : String) : Option Document := do
  let letters := dropByteOrderMark text.toList
  let statements ← readStatements? letters.length letters
  let building ← statements.foldlM Building.add {}
  return building.entries.toDocument

end ContingentPlan.Toml
