import ContingentPlan.Proofs.Toml.Documented
import ContingentPlan.Toml.Reader

/-!
What TOML texts are read as: records with one value under each key, and only such values as TOML has.
-/

namespace ContingentPlan.Toml

section Values

variable {text word rest : List Char} {value : Document}

theorem lt_of_integer? {number : Int} (read : integer? word = some number) : number < Int.pow 2 63 := by
  unfold integer? at read
  dsimp only at read
  rw [Option.bind_eq_bind] at read
  split at read
  all_goals
    rw [Option.bind_eq_some_iff] at read
    obtain ⟨magnitude, -, read⟩ := read
    rw [Option.ite_none_right_eq_some] at read
    obtain ⟨bounds, same⟩ := read
    exact Option.some.inj same ▸ bounds.2

theorem expressible_of_scalarOfWord? (read : scalarOfWord? word = some value) : Expressible value := by
  unfold scalarOfWord? at read
  split at read
  · cases read
    exact ⟨nofun, nofun⟩
  split at read
  · cases read
    exact ⟨nofun, nofun⟩
  split at read
  · rename_i number found
    cases read
    refine ⟨nofun, ?_⟩
    rintro _ ⟨⟩
    exact lt_of_integer? found
  split at read
  · cases read
    exact ⟨nofun, nofun⟩
  · cases read

theorem expressible_of_readScalar? (read : readScalar? text = some (value, rest)) : Expressible value := by
  unfold readScalar? at read
  dsimp only at read
  split at read
  · split at read
    · split at read
      · cases read
        exact ⟨nofun, nofun⟩
      · cases read
    · cases read
      exact ⟨nofun, nofun⟩
  · rw [Option.map_eq_some_iff] at read
    obtain ⟨_, scalar, ⟨⟩⟩ := read
    exact expressible_of_scalarOfWord? scalar

theorem expressible_of_readValue? {fuel depth : Nat}
    (read : readValue? fuel depth text = some (value, rest)) : Expressible value := by
  unfold readValue? at read
  split at read
  · simp only [Option.bind_eq_bind, Option.bind_eq_some_iff] at read
    obtain ⟨_, -, ⟨⟩⟩ := read
    exact ⟨nofun, nofun⟩
  · split at read
    · cases read
      exact ⟨nofun, nofun⟩
    · simp only [Option.bind_eq_bind, Option.bind_eq_some_iff] at read
      obtain ⟨_, -, ⟨⟩⟩ := read
      exact ⟨nofun, nofun⟩
  · rw [Option.map_eq_some_iff] at read
    obtain ⟨_, -, ⟨⟩⟩ := read
    exact ⟨nofun, nofun⟩
  · rw [Option.map_eq_some_iff] at read
    obtain ⟨_, -, ⟨⟩⟩ := read
    exact ⟨nofun, nofun⟩
  · exact expressible_of_readScalar? read
  · cases read

def Statement.Sound : Statement → Prop
  | .pair _ value => Expressible value
  | _ => True

theorem sound_of_readStatement? {statement : Statement}
    (read : readStatement? text = some (statement, rest)) : statement.Sound := by
  unfold readStatement? at read
  split at read
  · simp only [Option.bind_eq_bind, Option.bind_eq_some_iff] at read
    obtain ⟨_, -, read⟩ := read
    split at read
    · simp only [Option.bind_eq_some_iff] at read
      obtain ⟨_, -, ⟨⟩⟩ := read
      trivial
    · cases read
  · simp only [Option.bind_eq_bind, Option.bind_eq_some_iff] at read
    obtain ⟨_, -, read⟩ := read
    split at read
    · simp only [Option.bind_eq_some_iff] at read
      obtain ⟨_, -, ⟨⟩⟩ := read
      trivial
    · cases read
  · simp only [Option.bind_eq_bind, Option.bind_eq_some_iff] at read
    obtain ⟨_, -, _, found, _, -, ⟨⟩⟩ := read
    exact expressible_of_readValue? found

theorem sound_of_readStatements? {bound : Nat} {statements : List Statement}
    (read : readStatements? bound text = some statements) :
    ∀ statement ∈ statements, statement.Sound := by
  induction bound generalizing text statements with
  | zero =>
      rw [readStatements?.eq_def] at read
      dsimp only at read
      split at read
      · cases read
        exact fun _ => nofun
      · cases read
      · contradiction
  | succ bound ih =>
      rw [readStatements?.eq_def] at read
      dsimp only at read
      split at read
      · cases read
        exact fun _ => nofun
      · contradiction
      · rename_i same _
        cases same
        simp only [Option.bind_eq_bind, Option.bind_eq_some_iff] at read
        obtain ⟨_, first, _, others, ⟨⟩⟩ := read
        exact List.forall_mem_cons.mpr ⟨sound_of_readStatement? first, ih others⟩

end Values

/-- A table has one item under each key, and its own values are expressible. -/
structure Entries.Sound (entries : Entries) : Prop where
  distinct : (entries.map Prod.fst).Nodup
  values : ∀ key value, (key, Item.leaf value) ∈ entries → Expressible value

namespace Entries

variable {entries after : Entries} {key : String}

theorem Sound.nil : Sound [] := ⟨.nil, nofun⟩

section Update

variable {change : Option Item → Option Item}

theorem mem_keys_of_update (updated : entries.update key change = some after) {name : String}
    (member : name ∈ after.map Prod.fst) : name = key ∨ name ∈ entries.map Prod.fst := by
  induction entries generalizing after with
  | nil =>
      rw [update, Option.map_eq_some_iff] at updated
      obtain ⟨item, -, rfl⟩ := updated
      exact Or.inl (List.mem_singleton.mp member)
  | cons entry entries ih =>
      rw [update] at updated
      split at updated
      · rw [Option.map_eq_some_iff] at updated
        obtain ⟨item, -, rfl⟩ := updated
        exact Or.inr member
      · rw [Option.map_eq_some_iff] at updated
        obtain ⟨rest, updated, rfl⟩ := updated
        rcases List.mem_cons.mp member with first | later
        · exact Or.inr (first ▸ List.mem_cons_self)
        · exact (ih updated later).imp_right (List.mem_cons_of_mem _)

theorem Sound.update (sound : entries.Sound) (updated : entries.update key change = some after)
    (leaf : ∀ item value, change item = some (.leaf value) → Expressible value) : after.Sound := by
  induction entries generalizing after with
  | nil =>
      rw [Entries.update, Option.map_eq_some_iff] at updated
      obtain ⟨item, changed, rfl⟩ := updated
      refine ⟨List.pairwise_singleton _ key, fun name value member => ?_⟩
      cases List.mem_singleton.mp member
      exact leaf _ value changed
  | cons entry entries ih =>
      have distinct := List.nodup_cons.mp sound.distinct
      rw [Entries.update] at updated
      split at updated
      · rw [Option.map_eq_some_iff] at updated
        obtain ⟨item, changed, rfl⟩ := updated
        refine ⟨sound.distinct, fun name value member => ?_⟩
        rcases List.mem_cons.mp member with first | later
        · cases first
          exact leaf _ value changed
        · exact sound.values name value (List.mem_cons_of_mem _ later)
      · rename_i other
        rw [Option.map_eq_some_iff] at updated
        obtain ⟨rest, updated, rfl⟩ := updated
        have inner := ih ⟨distinct.2, fun name value member =>
          sound.values name value (List.mem_cons_of_mem _ member)⟩ updated
        refine ⟨List.nodup_cons.mpr ⟨fun member => ?_, inner.distinct⟩, fun name value member => ?_⟩
        · rcases mem_keys_of_update updated member with same | earlier
          · exact other same
          · exact distinct.1 earlier
        · rcases List.mem_cons.mp member with first | later
          · exact sound.values name value (first ▸ List.mem_cons_self)
          · exact inner.values name value later

end Update

theorem Sound.insertPair {value : Document} {keys : List String} (sound : entries.Sound)
    (expressible : Expressible value) (inserted : insertPair value keys entries = some after) :
    after.Sound := by
  unfold Entries.insertPair at inserted
  split at inserted
  · cases inserted
  · refine sound.update inserted fun item other changed => ?_
    split at changed
    · cases changed
      exact expressible
    · cases changed
  · refine sound.update inserted fun item other changed => ?_
    split at changed <;> simp at changed

theorem Sound.openTable (sound : entries.Sound) (opened : openTable key entries = some after) :
    after.Sound := by
  refine sound.update opened fun item other changed => ?_
  split at changed <;> cases changed

theorem Sound.openElement (sound : entries.Sound) (opened : openElement key entries = some after) :
    after.Sound := by
  refine sound.update opened fun item other changed => ?_
  split at changed <;> cases changed

theorem Sound.within {change : Entries → Option Entries} {path : List String} (sound : entries.Sound)
    (keeps : ∀ inner result, inner.Sound → change inner = some result → result.Sound)
    (changed : within change path entries = some after) : after.Sound := by
  cases path with
  | nil => exact keeps entries after sound changed
  | cons key path =>
      refine sound.update changed fun item other changed => ?_
      split at changed <;> simp at changed

theorem Sound.exists_fields (sound : entries.Sound) :
    ∃ fields : List (String × Document), entries.toDocument = .fields fields ∧
      (fields.map Prod.fst).Nodup ∧ ∀ field ∈ fields, Expressible field.2 := by
  refine ⟨entries.map fun entry => (entry.1, entry.2.toDocument), ?_, ?_, ?_⟩
  · rw [toDocument, Document.fields, List.map_map]
    congr 1
    clear sound
    induction entries with
    | nil => rfl
    | cons entry entries ih =>
        rw [fieldsOfEntries, ih]
        rfl
  · rw [List.map_map]
    exact sound.distinct
  · rw [List.forall_mem_map]
    rintro ⟨name, item⟩ member
    cases item with
    | leaf value =>
        rw [Item.toDocument]
        exact sound.values name value member
    | table origin inner =>
        rw [Item.toDocument]
        exact ⟨nofun, nofun⟩
    | tables elements =>
        rw [Item.toDocument]
        exact ⟨nofun, nofun⟩

end Entries

section Building

variable {building after : Building}

theorem sound_of_add {statement : Statement} (sound : building.entries.Sound)
    (statementSound : statement.Sound) (added : building.add statement = some after) :
    after.entries.Sound := by
  cases statement with
  | pair keys value =>
      rw [Building.add, Option.map_eq_some_iff] at added
      obtain ⟨entries, changed, rfl⟩ := added
      exact sound.within (fun _ _ inner inserted => inner.insertPair statementSound inserted) changed
  | header keys =>
      simp only [Building.add, Building.openAt, Option.bind_eq_bind, Option.bind_eq_some_iff] at added
      obtain ⟨key, -, entries, changed, ⟨⟩⟩ := added
      exact sound.within (fun _ _ inner opened => inner.openTable opened) changed
  | elementHeader keys =>
      simp only [Building.add, Building.openAt, Option.bind_eq_bind, Option.bind_eq_some_iff] at added
      obtain ⟨key, -, entries, changed, ⟨⟩⟩ := added
      exact sound.within (fun _ _ inner opened => inner.openElement opened) changed

theorem sound_of_foldlM {statements : List Statement} (sound : building.entries.Sound)
    (each : ∀ statement ∈ statements, statement.Sound)
    (built : statements.foldlM Building.add building = some after) : after.entries.Sound := by
  induction statements generalizing building with
  | nil =>
      cases built
      exact sound
  | cons statement statements ih =>
      rw [List.forall_mem_cons] at each
      rw [List.foldlM_cons, Option.bind_eq_bind, Option.bind_eq_some_iff] at built
      obtain ⟨middle, added, built⟩ := built
      exact ih (sound_of_add sound each.1 added) each.2 built

end Building

theorem exists_fields_of_read? {text : String} {document : Document} (read : read? text = some document) :
    ∃ fields : List (String × Document), document = .fields fields ∧ (fields.map Prod.fst).Nodup ∧
      ∀ field ∈ fields, Expressible field.2 := by
  simp only [read?, Option.bind_eq_bind, Option.bind_eq_some_iff] at read
  obtain ⟨statements, found, building, built, ⟨⟩⟩ := read
  exact (sound_of_foldlM .nil (sound_of_readStatements? found) built).exists_fields

end ContingentPlan.Toml
