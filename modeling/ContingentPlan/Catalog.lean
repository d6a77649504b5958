/-!
Catalogs: entries under distinct names, kept in the order of the names. Two catalogs with the same
entries are equal.
-/

namespace ContingentPlan

def placeEntry {α : Type} (name : String) (value : α) : List (String × α) → List (String × α)
  | [] => [(name, value)]
  | entry :: rest =>
      if name < entry.1 then (name, value) :: entry :: rest
      else if entry.1 = name then (name, value) :: rest
      else entry :: placeEntry name value rest

def Ascending {α : Type} (entries : List (String × α)) : Prop :=
  entries.Pairwise fun left right => left.1 < right.1

theorem mem_placeEntry {α : Type} {name : String} {value : α} {entry : String × α}
    {entries : List (String × α)} (member : entry ∈ placeEntry name value entries) :
    entry = (name, value) ∨ entry ∈ entries := by
  induction entries with
  | nil => simpa [placeEntry] using member
  | cons first rest ih =>
      simp only [placeEntry] at member
      split at member
      · simpa using member
      · split at member
        · grind
        · grind

theorem Ascending.placeEntry {α : Type} {name : String} {value : α}
    {entries : List (String × α)} (ascending : Ascending entries) :
    Ascending (placeEntry name value entries) := by
  unfold Ascending at *
  induction entries with
  | nil => simp [ContingentPlan.placeEntry]
  | cons first rest ih =>
      rw [List.pairwise_cons] at ascending
      simp only [ContingentPlan.placeEntry]
      split
      · rename_i below
        rw [List.pairwise_cons, List.pairwise_cons]
        refine ⟨?_, ascending⟩
        intro entry member
        rcases List.mem_cons.1 member with rfl | later
        · exact below
        · exact String.lt_trans below (ascending.1 entry later)
      · rename_i notBelow
        split
        · rename_i same
          rw [List.pairwise_cons]
          exact ⟨fun entry member => by simpa [← same] using ascending.1 entry member,
            ascending.2⟩
        · rename_i different
          rw [List.pairwise_cons]
          refine ⟨?_, ih ascending.2⟩
          intro entry member
          rcases mem_placeEntry member with rfl | later
          · rcases Std.lt_trichotomy first.1 name with above | same | below
            · exact above
            · exact absurd same different
            · exact absurd below notBelow
          · exact ascending.1 entry later

structure Catalog (α : Type) where
  entries : List (String × α) := []
  ascending : Ascending entries := by simp [Ascending]
deriving DecidableEq

namespace Catalog

variable {α : Type}

instance : EmptyCollection (Catalog α) := ⟨{}⟩

instance : Inhabited (Catalog α) := ⟨∅⟩

def names (catalog : Catalog α) : List String := catalog.entries.map Prod.fst

def values (catalog : Catalog α) : List α := catalog.entries.map Prod.snd

def size (catalog : Catalog α) : Nat := catalog.entries.length

def isEmpty (catalog : Catalog α) : Bool := catalog.entries.isEmpty

def clear (catalog : Catalog α) : Catalog α := { catalog with entries := [], ascending := .nil }

def find? (catalog : Catalog α) (name : String) : Option α := catalog.entries.lookup name

def insert (catalog : Catalog α) (name : String) (value : α) : Catalog α where
  entries := placeEntry name value catalog.entries
  ascending := catalog.ascending.placeEntry

def insertIfNew (catalog : Catalog α) (name : String) (value : α) : Catalog α :=
  if (catalog.find? name).isSome then catalog else catalog.insert name value

def modify (catalog : Catalog α) (name : String) (change : α → α) : Catalog α :=
  match catalog.find? name with
  | some value => catalog.insert name (change value)
  | none => catalog

end Catalog

end ContingentPlan
