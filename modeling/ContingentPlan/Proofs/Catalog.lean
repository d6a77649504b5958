import ContingentPlan.Catalog
import Mathlib.Data.List.Sort

/-!
What lookups find in a catalog: the entry that was placed last under a name, and the others as they
were.
-/

namespace ContingentPlan

variable {α : Type}

theorem lookup_cons_eq_ite {κ : Type} [DecidableEq κ] (first : κ × α) (rest : List (κ × α)) (name : κ) :
    (first :: rest).lookup name = if name = first.1 then some first.2 else rest.lookup name := by
  obtain ⟨key, value⟩ := first
  by_cases same : name = key
  · simp [same]
  · have passed : (name == key) = false := by simpa using same
    simp [List.lookup_cons, passed, same]

theorem lookup_placeEntry (name other : String) (value : α) (entries : List (String × α)) :
    (placeEntry name value entries).lookup other =
      if other = name then some value else entries.lookup other := by
  induction entries with
  | nil => simp [placeEntry, lookup_cons_eq_ite]
  | cons first rest ih =>
      simp only [placeEntry]
      split
      · simp [lookup_cons_eq_ite]
      · split
        · rename_i replaced
          by_cases same : other = name <;> simp [lookup_cons_eq_ite, replaced, same]
        · rename_i kept
          by_cases same : other = first.1
          · simp [lookup_cons_eq_ite, same, kept]
          · simp [lookup_cons_eq_ite, same, ih]

theorem lookup_eq_some_iff_mem {entries : List (String × α)} {name : String} {value : α}
    (once : (entries.map Prod.fst).Nodup) :
    entries.lookup name = some value ↔ (name, value) ∈ entries := by
  induction entries with
  | nil => simp
  | cons first rest ih =>
      obtain ⟨key, held⟩ := first
      rw [List.map_cons, List.nodup_cons] at once
      rw [lookup_cons_eq_ite, List.mem_cons, Prod.mk.injEq]
      by_cases same : name = key
      · subst name
        have absent : (key, value) ∉ rest :=
          fun member => once.1 (List.mem_map.mpr ⟨_, member, rfl⟩)
        simp [absent, eq_comm]
      · simp [same, ih once.2]

namespace Catalog

theorem nodup_names (catalog : Catalog α) : catalog.names.Nodup := by
  rw [names, List.Nodup, List.pairwise_map]
  exact catalog.ascending.imp fun below => Std.ne_of_lt below

theorem find?_insert (catalog : Catalog α) (name other : String) (value : α) :
    (catalog.insert name value).find? other =
      if other = name then some value else catalog.find? other :=
  lookup_placeEntry name other value catalog.entries

theorem find?_insertIfNew (catalog : Catalog α) (name other : String) (value : α) :
    (catalog.insertIfNew name value).find? other =
      if other = name then some ((catalog.find? name).getD value) else catalog.find? other := by
  by_cases same : other = name
  · subst other
    cases found : catalog.find? name with
    | none => simp [insertIfNew, found, find?_insert]
    | some present => simp [insertIfNew, found]
  · cases found : catalog.find? name with
    | none => simp [insertIfNew, found, find?_insert, same]
    | some present => simp [insertIfNew, found, same]

theorem find?_modify (catalog : Catalog α) (name other : String) (change : α → α) :
    (catalog.modify name change).find? other =
      if other = name then (catalog.find? name).map change else catalog.find? other := by
  by_cases same : other = name
  · subst other
    cases found : catalog.find? name with
    | none => simp [modify, found]
    | some present => simp [modify, found, find?_insert]
  · cases found : catalog.find? name with
    | none => simp [modify, found, same]
    | some present => simp [modify, found, find?_insert, same]

theorem mem_names_iff {catalog : Catalog α} {name : String} :
    name ∈ catalog.names ↔ ∃ value, catalog.find? name = some value := by
  simp only [names, find?]
  generalize catalog.entries = entries
  induction entries with
  | nil => simp
  | cons first rest ih =>
      by_cases same : name = first.1
      · simp [same, lookup_cons_eq_ite]
      · simp [same, lookup_cons_eq_ite, ih]

theorem find?_eq_some_iff_mem {catalog : Catalog α} {name : String} {value : α} :
    catalog.find? name = some value ↔ (name, value) ∈ catalog.entries :=
  lookup_eq_some_iff_mem catalog.nodup_names

theorem eq_of_find? {left right : Catalog α} (same : ∀ name, left.find? name = right.find? name) :
    left = right := by
  have antisymmetric : Std.Antisymm fun first second : String × α => first.1 < second.1 :=
    ⟨fun _ _ below above => absurd above (String.lt_asymm below)⟩
  have irreflexive : Std.Irrefl fun first second : String × α => first.1 < second.1 :=
    ⟨fun _ below => String.lt_irrefl _ below⟩
  have entries : left.entries = right.entries := by
    apply left.ascending.eq_of_mem_iff right.ascending
    intro entry
    rw [← find?_eq_some_iff_mem, ← find?_eq_some_iff_mem, same]
  obtain ⟨_, _⟩ := left
  obtain ⟨_, _⟩ := right
  congr

end Catalog

end ContingentPlan
