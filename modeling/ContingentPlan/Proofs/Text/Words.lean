import ContingentPlan.Trace.Token

/-!
Cutting a text into words. The words are not empty and hold no blank, and such words are found again
in the text that joins them with single spaces.
-/

namespace ContingentPlan

namespace Text

def IsWord (word : List Char) : Prop := word ≠ [] ∧ ∀ character ∈ word, isBlank character = false

instance (word : List Char) : Decidable (IsWord word) :=
  decidable_of_iff (word ≠ [] ∧ word.all (fun character => !isBlank character) = true)
    (by simp [IsWord])

theorem wordsFrom_append {word : List Char} (solid : ∀ character ∈ word, isBlank character = false)
    (current rest : List Char) :
    wordsFrom current (word ++ rest) = wordsFrom (word.reverse ++ current) rest := by
  induction word generalizing current with
  | nil => rfl
  | cons first word ih =>
      have tail : ∀ character ∈ word, isBlank character = false :=
        fun character member => solid character (List.mem_cons_of_mem first member)
      rw [List.cons_append, wordsFrom, solid first List.mem_cons_self]
      simpa using ih tail (first :: current)

theorem isWord_reverse {current : List Char} (begun : current.isEmpty = false)
    (solid : ∀ character ∈ current, isBlank character = false) : IsWord current.reverse := by
  constructor
  · simpa using begun
  · simpa using solid

theorem isWord_of_mem_wordsFrom {current text word : List Char}
    (solid : ∀ character ∈ current, isBlank character = false)
    (member : word ∈ wordsFrom current text) : IsWord word := by
  induction text generalizing current with
  | nil =>
      cases empty : current.isEmpty with
      | true => simp [wordsFrom, empty] at member
      | false =>
          simp only [wordsFrom, empty, Bool.false_eq_true, if_false, List.mem_singleton] at member
          rw [member]
          exact isWord_reverse empty solid
  | cons first text ih =>
      have restart : word ∈ wordsFrom [] text → IsWord word :=
        fun later => ih (by simp) later
      rw [wordsFrom] at member
      cases blank : isBlank first with
      | true =>
          cases empty : current.isEmpty with
          | true =>
              simp only [blank, empty, if_true] at member
              exact restart member
          | false =>
              simp only [blank, empty, if_true, Bool.false_eq_true, if_false,
                List.mem_cons] at member
              rcases member with rfl | later
              · exact isWord_reverse empty solid
              · exact restart later
      | false =>
          simp only [blank, Bool.false_eq_true, if_false] at member
          have extended : ∀ character ∈ first :: current, isBlank character = false := by
            intro character among
            rcases List.mem_cons.mp among with rfl | older
            · exact blank
            · exact solid character older
          exact ih extended member

theorem wordsFrom_intercalate {words : List (List Char)} (solid : ∀ word ∈ words, IsWord word) :
    wordsFrom [] ([' '].intercalate words) = words := by
  induction words with
  | nil => rfl
  | cons first rest ih =>
      obtain ⟨nonempty, unbroken⟩ := solid first List.mem_cons_self
      have started : (first.reverse ++ []).isEmpty = false := by simpa using nonempty
      cases rest with
      | nil =>
          have whole := wordsFrom_append unbroken [] []
          rw [List.append_nil] at whole
          rw [List.intercalate_singleton, whole, wordsFrom, started]
          simp
      | cons second rest =>
          have later := ih fun word member => solid word (List.mem_cons_of_mem first member)
          have space : isBlank ' ' = true := by decide
          rw [List.intercalate_cons_cons, List.append_assoc, wordsFrom_append unbroken,
            List.singleton_append, wordsFrom, space, started, later]
          simp

theorem isWord_of_mem_words {text word : String} (member : word ∈ words text) :
    IsWord word.toList := by
  obtain ⟨characters, among, rfl⟩ := List.mem_map.mp member
  rw [String.toList_ofList]
  exact isWord_of_mem_wordsFrom (by simp) among

theorem words_intercalate {list : List String} (solid : ∀ word ∈ list, IsWord word.toList) :
    words (" ".intercalate list) = list := by
  have characters : wordsFrom [] ([' '].intercalate (list.map String.toList)) =
      list.map String.toList := by
    apply wordsFrom_intercalate
    simpa using solid
  rw [words, String.toList_intercalate, show " ".toList = [' '] from rfl, characters, List.map_map]
  simp [Function.comp_def]

end Text

theorem Signature.ofText?_text {text : String} {signature : Signature}
    (parsed : ofText? text = some signature) : ofText? signature.text = some signature := by
  unfold ofText? at parsed
  split at parsed
  · cases parsed
  · rename_i operator arguments found
    cases parsed
    have again : Text.words (" ".intercalate (operator :: arguments)) = operator :: arguments := by
      rw [← found]
      exact Text.words_intercalate fun word member => Text.isWord_of_mem_words member
    simp [ofText?, Signature.text, again]

end ContingentPlan
