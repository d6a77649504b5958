import ContingentPlan.Text.Identifier
import ContingentPlan.Text.Lowercase

/-!
Identifiers: a letter, then letters, digits and underscores, all of them ASCII. Every text becomes one,
and what is put behind it with an underscore leaves it one.
-/

namespace ContingentPlan.Text

def isIdentifierChar (character : Char) : Bool := isLetterOrDigit character || character == '_'

def IsIdentifier (text : String) : Prop :=
  ∃ first rest, text.toList = first :: rest ∧ isLetter first = true ∧
    ∀ character ∈ rest, isIdentifierChar character = true

instance (text : String) : Decidable (IsIdentifier text) :=
  match chars : text.toList with
  | [] => isFalse fun ⟨_, _, begins, _⟩ => by simp [chars] at begins
  | first :: rest =>
      decidable_of_iff (isLetter first = true ∧ rest.all isIdentifierChar = true)
        ⟨fun legal => ⟨first, rest, chars, legal.1, List.all_eq_true.mp legal.2⟩,
          fun ⟨_, _, begins, letter, later⟩ => by
            rw [chars, List.cons.injEq] at begins
            rw [begins.1, begins.2, List.all_eq_true]
            exact ⟨letter, later⟩⟩

theorem isIdentifierChar_of_isLetter {character : Char} (letter : isLetter character = true) :
    isIdentifierChar character = true := by
  simp [isIdentifierChar, isLetterOrDigit, letter]

theorem isIdentifierChar_of_isDigit {character : Char} (digit : character.isDigit = true) :
    isIdentifierChar character = true := by
  rw [Char.isDigit, Bool.and_eq_true, decide_eq_true_eq, decide_eq_true_eq] at digit
  have between : isDigit character = true := by simpa [isDigit, Char.le_def] using digit
  simp [isIdentifierChar, isLetterOrDigit, between]

theorem IsIdentifier.chars {text : String} (legal : IsIdentifier text) :
    ∀ character ∈ text.toList, isIdentifierChar character = true := by
  obtain ⟨first, rest, begins, letter, later⟩ := legal
  intro character member
  rw [begins] at member
  rcases List.mem_cons.mp member with rfl | member
  · exact isIdentifierChar_of_isLetter letter
  · exact later character member

theorem IsIdentifier.append {text behind : String} (legal : IsIdentifier text)
    (legalToo : ∀ character ∈ behind.toList, isIdentifierChar character = true) :
    IsIdentifier (text ++ behind) := by
  obtain ⟨first, rest, begins, letter, later⟩ := legal
  refine ⟨first, rest ++ behind.toList, by simp [begins], letter, ?_⟩
  intro character member
  rcases List.mem_append.mp member with member | member
  · exact later character member
  · exact legalToo character member

theorem isIdentifierChar_of_mem_underscoreRuns {afterUnderscore : Bool} {text : List Char}
    {character : Char} (member : character ∈ underscoreRuns afterUnderscore text) :
    isIdentifierChar character = true := by
  induction text generalizing afterUnderscore with
  | nil => simp [underscoreRuns] at member
  | cons first text ih =>
      rw [underscoreRuns] at member
      split at member
      · rename_i kept
        rcases List.mem_cons.mp member with rfl | later
        · simp [isIdentifierChar, kept]
        · exact ih later
      · split at member
        · exact ih member
        · rcases List.mem_cons.mp member with rfl | later
          · rfl
          · exact ih later

theorem trimUnderscores_subset (text : List Char) : trimUnderscores text ⊆ text := by
  intro character member
  rw [trimUnderscores, List.mem_reverse] at member
  have inner := (List.dropWhile_sublist _).subset member
  rw [List.mem_reverse] at inner
  exact (List.dropWhile_sublist _).subset inner

theorem isIdentifier_identifier (text : String) : IsIdentifier (identifier text) := by
  have legal : ∀ character ∈ trimUnderscores (underscoreRuns false text.toList),
      isIdentifierChar character = true :=
    fun character member => isIdentifierChar_of_mem_underscoreRuns (trimUnderscores_subset _ member)
  rw [IsIdentifier, identifier, String.toList_ofList, identifierChars]
  cases trimmed : trimUnderscores (underscoreRuns false text.toList) with
  | nil => exact ⟨'s', ['_'], rfl, by decide, List.all_eq_true.mp (by decide)⟩
  | cons first rest =>
      rw [trimmed] at legal
      by_cases letter : isLetter first = true
      · exact ⟨first, rest, by simp [startWithLetter, letter], letter,
          fun character member => legal character (List.mem_cons_of_mem first member)⟩
      · refine ⟨'s', '_' :: first :: rest, by simp [startWithLetter, letter], by decide, ?_⟩
        intro character member
        rcases List.mem_cons.mp member with rfl | member
        · decide
        · exact legal character member

theorem lowercaseFrom_eq_map_toLower {text : List Char} (before : List Char)
    (ascii : ∀ character ∈ text, character.toNat < 0x80) :
    lowercaseFrom before text = text.map Char.toLower := by
  induction text generalizing before with
  | nil => rfl
  | cons first text ih =>
      have single := ascii first List.mem_cons_self
      have notSigma : first ≠ 'Σ' := by
        rintro rfl
        exact absurd single (by decide)
      rw [lowercaseFrom, if_neg notSigma, lowercaseChar, if_pos single, List.map_cons,
        List.singleton_append, ih _ fun character member =>
          ascii character (List.mem_cons_of_mem first member)]

theorem toNat_lt_of_isIdentifierChar {character : Char}
    (legal : isIdentifierChar character = true) : character.toNat < 0x80 := by
  simp only [isIdentifierChar, isLetterOrDigit, isLetter, isDigit, Bool.or_eq_true,
    Bool.and_eq_true, decide_eq_true_eq, beq_iff_eq, Char.le_def, UInt32.le_iff_toNat_le] at legal
  rcases legal with ((⟨-, upper⟩ | ⟨-, upper⟩) | ⟨-, upper⟩) | rfl
  · change character.toNat ≤ 122 at upper
    omega
  · change character.toNat ≤ 90 at upper
    omega
  · change character.toNat ≤ 57 at upper
    omega
  · decide

theorem IsIdentifier.toList_lowercase {text : String} (legal : IsIdentifier text) :
    (lowercase text).toList = text.toList.map Char.toLower := by
  rw [lowercase, String.toList_ofList]
  exact lowercaseFrom_eq_map_toLower [] fun character member =>
    toNat_lt_of_isIdentifierChar (legal.chars character member)

end ContingentPlan.Text
