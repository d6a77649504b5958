/-!
Tables that keep their entries in the order in which the keys first arrived. Writing to a key that
is present replaces its value and moves nothing.
-/

namespace ContingentPlan

variable {κ α : Type}

theorem nodup_filter {entries : List (κ × α)} (keep : κ × α → Bool)
    (distinct : (entries.map Prod.fst).Nodup) : ((entries.filter keep).map Prod.fst).Nodup :=
  distinct.sublist (List.filter_sublist.map Prod.fst)

variable [DecidableEq κ]

def insertEntry (key : κ) (value : α) : List (κ × α) → List (κ × α)
  | [] => [(key, value)]
  | entry :: rest =>
      if entry.1 = key then (key, value) :: rest else entry :: insertEntry key value rest

theorem mem_keys_insertEntry {key other : κ} {value : α} {entries : List (κ × α)} :
    other ∈ (insertEntry key value entries).map Prod.fst ↔
      other = key ∨ other ∈ entries.map Prod.fst := by
  induction entries with
  | nil => simp [insertEntry]
  | cons entry rest ih =>
      simp only [insertEntry]
      split
      · rename_i same
        simp [same]
      · simp only [List.map_cons, List.mem_cons, ih]
        constructor <;> (intro member; grind)

theorem nodup_insertEntry {key : κ} {value : α} {entries : List (κ × α)}
    (distinct : (entries.map Prod.fst).Nodup) :
    ((insertEntry key value entries).map Prod.fst).Nodup := by
  induction entries with
  | nil => simp [insertEntry]
  | cons entry rest ih =>
      simp only [List.map_cons, List.nodup_cons] at distinct
      simp only [insertEntry]
      split
      · rename_i same
        simpa [← same] using distinct
      · rename_i different
        simp only [List.map_cons, List.nodup_cons, mem_keys_insertEntry, not_or]
        exact ⟨⟨different, distinct.1⟩, ih distinct.2⟩

structure Table (κ α : Type) where
  entries : List (κ × α) := []
  distinct : (entries.map Prod.fst).Nodup := by simp
deriving DecidableEq

namespace Table

instance : EmptyCollection (Table κ α) := ⟨{}⟩

instance : Inhabited (Table κ α) := ⟨∅⟩

def keys (table : Table κ α) : List κ := table.entries.map Prod.fst

def find? (table : Table κ α) (key : κ) : Option α := table.entries.lookup key

def contains (table : Table κ α) (key : κ) : Bool := (table.find? key).isSome

def insert (table : Table κ α) (key : κ) (value : α) : Table κ α where
  entries := insertEntry key value table.entries
  distinct := nodup_insertEntry table.distinct

def erase (table : Table κ α) (key : κ) : Table κ α where
  entries := table.entries.filter fun entry => entry.1 ≠ key
  distinct := nodup_filter _ table.distinct

def ofList (entries : List (κ × α)) : Table κ α :=
  entries.foldl (fun table entry => table.insert entry.1 entry.2) ∅

/-- Renames every key, in order; an entry whose new key is taken replaces the value there. -/
def rename (rule : κ → κ) (table : Table κ α) : Table κ α :=
  ofList (table.entries.map fun entry => (rule entry.1, entry.2))

end Table

end ContingentPlan
