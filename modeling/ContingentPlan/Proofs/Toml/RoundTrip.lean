import ContingentPlan.BuiltIn
import ContingentPlan.Proofs.Toml.Reader
import ContingentPlan.Proofs.Toml.Tree

/-!
The reader and the writer of TOML do what is documented of a library for TOML.
-/

namespace ContingentPlan.Toml

theorem isBareKey_of_bare {key : String} (bare : Bare key) : IsBareKey key.toList := by
  obtain ⟨nonempty, each⟩ := bare
  have marks : ['_', '-'].all isBareKeyChar = true := by decide
  refine ⟨by simpa using nonempty, List.all_eq_true.mpr fun character member => ?_⟩
  rcases each character member with inner | mark
  · simp [isBareKeyChar, inner]
  · exact List.all_eq_true.mp marks character mark

section Entries

variable {key value text : String} {document : Document} {number : Nat}
  {rest : List (Option String × Document)} {entries : List (String × Document)}

theorem writeEntries_cons (notNull : document ≠ .null) :
    writeEntries ((some key, document) :: rest) = (do
      let value ← writeValue document
      return (key ++ " = " ++ value ++ "\n") ++ (← writeEntries rest)) := by
  cases document <;> first | exact absurd rfl notNull | rfl

theorem writeValue_of_lt (fits : number < Nat.pow 2 63) :
    writeValue (.ofId number) = .ok (toString number) := by
  have power : Int.pow 2 63 = (Nat.pow 2 63 : Nat) := rfl
  have bounds : -Int.pow 2 63 ≤ (number : Int) ∧ (number : Int) < Int.pow 2 63 :=
    ⟨Int.le_trans (by decide) (Int.natCast_nonneg number), by rw [power]; exact Int.ofNat_lt.mpr fits⟩
  rw [Document.ofId, writeValue, if_pos bounds]
  rfl

theorem writeValue_of_le (large : Nat.pow 2 63 ≤ number) :
    writeValue (.ofId number) = .error "out-of-range value" := by
  have power : Int.pow 2 63 = (Nat.pow 2 63 : Nat) := rfl
  rw [Document.ofId, writeValue, if_neg]
  rintro ⟨-, small⟩
  rw [power, Int.ofNat_lt] at small
  exact absurd large (Nat.not_le.mpr small)

structure Lined (lines : List Line) (text : String) (entries : List (String × Document)) : Prop where
  written : writeEntries (entries.map fun entry => (some entry.1, entry.2)) = .ok text
  spelled : text.toList = lines.flatMap Line.chars
  stated : lines.map Line.entry = stated entries

theorem Lined.cons {lines : List Line} (lined : Lined lines text entries) (bare : Bare key)
    (writes : writeValue document = .ok value) (spells : Spells value.toList document)
    (notNull : document ≠ .null) :
    Lined (⟨key, value, document, isBareKey_of_bare bare, spells⟩ :: lines)
      (key ++ " = " ++ value ++ "\n" ++ text) ((key, document) :: entries) where
  written := by
    rw [List.map_cons, writeEntries_cons notNull, writes, lined.written]
    rfl
  spelled := by simp [lined.spelled, Line.chars, lineChars]
  stated := by
    rw [List.map_cons, lined.stated]
    cases document <;> first | exact absurd rfl notNull | rfl

theorem exists_lined (each : ∀ entry ∈ entries, Bare entry.1 ∧ Writable entry.2) :
    ∃ lines text, Lined lines text entries := by
  induction entries with
  | nil => exact ⟨[], "", rfl, rfl, rfl⟩
  | cons entry entries ih =>
      rw [List.forall_mem_cons] at each
      obtain ⟨⟨bare, writable⟩, others⟩ := each
      obtain ⟨lines, text, lined⟩ := ih others
      obtain ⟨key, document⟩ := entry
      cases writable with
      | null => exact ⟨lines, text, lined.written, lined.spelled, lined.stated⟩
      | text value => exact ⟨_, _, lined.cons bare rfl (spells_quote value) nofun⟩
      | integer fits => exact ⟨_, _, lined.cons bare (writeValue_of_lt fits) (spells_number fits) nofun⟩

theorem exists_error (large : Nat.pow 2 63 ≤ number)
    (among : ∃ entry ∈ entries, entry.2 = .ofId number) :
    ∃ reason, writeEntries (entries.map fun entry => (some entry.1, entry.2)) = .error reason := by
  induction entries with
  | nil => simp at among
  | cons entry entries ih =>
      obtain ⟨key, document⟩ := entry
      by_cases here : document = .ofId number
      · rw [List.map_cons, writeEntries_cons (by rw [here]; nofun), here, writeValue_of_le large]
        exact ⟨_, rfl⟩
      · obtain ⟨reason, fails⟩ := ih (by simpa [here] using among)
        by_cases null : document = .null
        · rw [List.map_cons, null, writeEntries]
          exact ⟨reason, fails⟩
        · rw [List.map_cons, writeEntries_cons null, fails]
          cases writeValue document <;> exact ⟨_, rfl⟩

end Entries

theorem codec_documented : Documented codec where
  pretty entries distinct each := by
    obtain ⟨lines, text, lined⟩ := exists_lined each
    have different : (lines.map Line.key).Nodup := by
      have keys : lines.map Line.key = (stated entries).map Prod.fst := by
        rw [← lined.stated, List.map_map]
        rfl
      rw [keys]
      exact distinct.sublist (List.filter_sublist.map Prod.fst)
    refine ⟨text, lined.written, ?_⟩
    change (read? text).elim _ _ = _
    rw [Line.read?_lines lined.spelled different, lined.stated]
    rfl
  unwritable entries number large among := exists_error large among
  read text document found := by
    change (read? text).elim _ _ = _ at found
    cases read : read? text with
    | none =>
        rw [read] at found
        cases found
    | some document =>
        rw [read] at found
        cases found
        exact exists_fields_of_read? read

end ContingentPlan.Toml
