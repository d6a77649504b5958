import ContingentPlan.Table
import ContingentPlan.Proofs.Catalog
import Mathlib.Data.List.Induction
import Mathlib.Data.List.Nodup

/-!
What a table holds after its entries have arrived one by one: each key once, where it came first, with
the value that came last.
-/

namespace ContingentPlan

variable {κ α : Type} [DecidableEq κ]

theorem lookup_insertEntry (key other : κ) (value : α) (entries : List (κ × α)) :
    (insertEntry key value entries).lookup other =
      if other = key then some value else entries.lookup other := by
  induction entries with
  | nil => simp [insertEntry, lookup_cons_eq_ite]
  | cons entry entries ih =>
      rw [insertEntry]
      split
      · rename_i same
        by_cases here : other = key
        · simp [lookup_cons_eq_ite, here]
        · simp [lookup_cons_eq_ite, here, same]
      · rename_i different
        rw [lookup_cons_eq_ite, lookup_cons_eq_ite, ih]
        by_cases here : other = entry.1
        · simp [here, different]
        · simp [here]

theorem lookup_filter_ne (key other : κ) (entries : List (κ × α)) :
    (entries.filter fun entry => entry.1 ≠ key).lookup other =
      if other = key then none else entries.lookup other := by
  induction entries with
  | nil => simp
  | cons entry entries ih =>
      rw [List.filter_cons, lookup_cons_eq_ite]
      by_cases gone : entry.1 = key
      · rw [if_neg (by simpa using gone), ih]
        by_cases here : other = key
        · simp [here]
        · simp [here, gone]
      · rw [if_pos (by simpa using gone), lookup_cons_eq_ite, ih]
        by_cases here : other = entry.1
        · simp [here, gone]
        · simp [here]

theorem insertEntry_of_not_mem {key : κ} {value : α} {entries : List (κ × α)}
    (absent : key ∉ entries.map Prod.fst) :
    insertEntry key value entries = entries ++ [(key, value)] := by
  induction entries with
  | nil => rfl
  | cons entry entries ih =>
      rw [List.map_cons, List.mem_cons, not_or] at absent
      rw [insertEntry, if_neg (Ne.symm absent.1), ih absent.2, List.cons_append]

theorem keys_insertEntry_of_mem {key : κ} {value : α} {entries : List (κ × α)}
    (present : key ∈ entries.map Prod.fst) :
    (insertEntry key value entries).map Prod.fst = entries.map Prod.fst := by
  induction entries with
  | nil => cases present
  | cons entry entries ih =>
      rw [insertEntry]
      by_cases here : entry.1 = key
      · simp [here]
      · have later : key ∈ entries.map Prod.fst := by simpa [Ne.symm here] using present
        simp [here, ih later]

namespace Table

omit [DecidableEq κ] in
theorem eq_of_entries {first second : Table κ α} (same : first.entries = second.entries) :
    first = second := by
  cases first
  cases second
  cases same
  rfl

theorem find?_eq_none_iff {table : Table κ α} {key : κ} :
    table.find? key = none ↔ key ∉ table.keys := by
  rw [find?, List.lookup_eq_none_iff, keys, List.mem_map]
  constructor
  · rintro absent ⟨entry, member, same⟩
    simpa [same] using absent entry member
  · intro absent entry member
    simp only [bne_iff_ne, ne_eq]
    intro same
    exact absent ⟨entry, member, same.symm⟩

theorem entries_insert (table : Table κ α) (key : κ) (value : α) :
    (table.insert key value).entries = insertEntry key value table.entries :=
  rfl

theorem find?_insert (table : Table κ α) (key other : κ) (value : α) :
    (table.insert key value).find? other = if other = key then some value else table.find? other :=
  lookup_insertEntry key other value table.entries

theorem mem_keys_insert {table : Table κ α} {key other : κ} {value : α} :
    other ∈ (table.insert key value).keys ↔ other = key ∨ other ∈ table.keys :=
  mem_keys_insertEntry

theorem ofList_append_singleton (entries : List (κ × α)) (entry : κ × α) :
    ofList (entries ++ [entry]) = (ofList entries).insert entry.1 entry.2 := by
  rw [ofList, List.foldl_append]
  rfl

theorem entries_ofList {entries : List (κ × α)} (distinct : (entries.map Prod.fst).Nodup) :
    (ofList entries).entries = entries := by
  induction entries using List.reverseRecOn with
  | nil => rfl
  | append_singleton entries entry ih =>
      rw [List.map_append, List.nodup_append] at distinct
      obtain ⟨older, -, apart⟩ := distinct
      have absent : entry.1 ∉ entries.map Prod.fst := fun member => apart _ member _ (by simp) rfl
      rw [ofList_append_singleton, entries_insert, ih older, insertEntry_of_not_mem absent]

theorem ofList_entries (table : Table κ α) : ofList table.entries = table :=
  eq_of_entries (entries_ofList table.distinct)

theorem keys_ofList (entries : List (κ × α)) :
    (ofList entries).keys = (entries.map Prod.fst).eraseDups := by
  induction entries using List.reverseRecOn with
  | nil => rfl
  | append_singleton entries entry ih =>
      have known : entry.1 ∈ (ofList entries).keys ↔ entry.1 ∈ entries.map Prod.fst := by
        rw [ih, List.mem_eraseDups]
      rw [ofList_append_singleton, List.map_append, List.map_singleton, List.eraseDups_append, ← ih]
      by_cases present : entry.1 ∈ entries.map Prod.fst
      · have nothing : [entry.1].removeAll (entries.map Prod.fst) = [] := by
          simpa [List.removeAll] using present
        rw [nothing, List.eraseDups_nil, List.append_nil]
        exact keys_insertEntry_of_mem (known.mpr present)
      · have itself : [entry.1].removeAll (entries.map Prod.fst) = [entry.1] := by
          simpa [List.removeAll] using present
        rw [itself, keys, entries_insert, insertEntry_of_not_mem (mt known.mp present), List.map_append]
        rfl

theorem find?_ofList (entries : List (κ × α)) (key : κ) :
    (ofList entries).find? key =
      ((entries.filter fun entry => entry.1 = key).getLast?).map Prod.snd := by
  induction entries using List.reverseRecOn with
  | nil => rfl
  | append_singleton entries entry ih =>
      rw [ofList_append_singleton, find?_insert, ih, List.filter_append]
      by_cases here : key = entry.1
      · simp [here]
      · simp [here, Ne.symm here]

section Rename

variable (rule : κ → κ) (table : Table κ α)

theorem keys_rename : (table.rename rule).keys = (table.keys.map rule).eraseDups := by
  rw [rename, keys_ofList, keys, List.map_map, List.map_map]
  rfl

theorem mem_keys_rename {key : κ} :
    key ∈ (table.rename rule).keys ↔ ∃ other ∈ table.keys, rule other = key := by
  rw [keys_rename, List.mem_eraseDups, List.mem_map]

theorem find?_rename (key : κ) :
    (table.rename rule).find? key =
      ((table.entries.filter fun entry => rule entry.1 = key).getLast?).map Prod.snd := by
  rw [rename, find?_ofList, List.filter_map, List.getLast?_map, Option.map_map]
  rfl

variable {rule table}

theorem rename_of_fixed (fixed : ∀ key ∈ table.keys, rule key = key) : table.rename rule = table := by
  have same : (table.entries.map fun entry => (rule entry.1, entry.2)) = table.entries := by
    conv => rhs; rw [← List.map_id table.entries]
    apply List.map_congr_left
    intro entry member
    exact Prod.ext (fixed entry.1 (List.mem_map_of_mem member)) rfl
  rw [rename, same, ofList_entries]

theorem rename_insert {key : κ} (value : α) (absent : key ∉ table.keys) :
    (table.insert key value).rename rule = (table.rename rule).insert (rule key) value := by
  rw [rename, rename, entries_insert, insertEntry_of_not_mem absent, List.map_append,
    List.map_singleton, ofList_append_singleton]

end Rename

end Table

end ContingentPlan
