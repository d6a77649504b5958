import ContingentPlan.Proofs.Text.Words
import Mathlib.Data.List.TakeWhile

/-!
Words and trimming. Words are cut at every blank, so blanks at the ends of a text do not matter to them;
a trimmed text with a single word is that word.
-/

namespace ContingentPlan

namespace Text

def Solid (text : List Char) : Prop := ∀ character ∈ text, isBlank character = false

instance (text : List Char) : Decidable (Solid text) :=
  List.decidableBAll (fun character => isBlank character = false) text

def Blank (text : List Char) : Prop := ∀ character ∈ text, isBlank character = true

variable {first text lead tail : List Char} {blank : Char}

theorem solid_nil : Solid [] := by simp [Solid]

theorem Solid.concat (solid : Solid first) {character : Char} (own : isBlank character = false) :
    Solid (first ++ [character]) := by
  intro other member
  rcases List.mem_append.mp member with older | last
  · exact solid other older
  · rw [List.mem_singleton.mp last, own]

theorem Blank.of_cons (blanks : Blank (blank :: text)) : isBlank blank = true ∧ Blank text :=
  List.forall_mem_cons.mp blanks

theorem wordsFrom_append_blank (isBlank : isBlank blank = true) (current first rest : List Char) :
    wordsFrom current (first ++ blank :: rest) = wordsFrom current first ++ wordsFrom [] rest := by
  induction first generalizing current with
  | nil =>
      simp only [List.nil_append, wordsFrom, isBlank, if_true]
      split <;> rfl
  | cons character first ih =>
      rw [List.cons_append, wordsFrom, wordsFrom]
      split
      · split
        · exact ih []
        · rw [ih [], List.cons_append]
      · exact ih (character :: current)

theorem wordsFrom_of_solid (solid : Solid text) :
    wordsFrom [] text = if text = [] then [] else [text] := by
  have whole := wordsFrom_append solid [] []
  rw [List.append_nil, List.append_nil] at whole
  rw [whole, wordsFrom]
  cases text with
  | nil => rfl
  | cons character text => simp

theorem wordsFrom_blank_append (blanks : Blank lead) (text : List Char) :
    wordsFrom [] (lead ++ text) = wordsFrom [] text := by
  induction lead with
  | nil => rfl
  | cons blank lead ih =>
      obtain ⟨isBlank, rest⟩ := blanks.of_cons
      have cut := wordsFrom_append_blank isBlank [] [] (lead ++ text)
      rw [List.cons_append]
      exact cut.trans (ih rest)

theorem wordsFrom_append_of_blank (blanks : Blank tail) (text : List Char) :
    wordsFrom [] (text ++ tail) = wordsFrom [] text := by
  cases tail with
  | nil => rw [List.append_nil]
  | cons blank tail =>
      obtain ⟨isBlank, rest⟩ := blanks.of_cons
      have none := wordsFrom_blank_append rest []
      rw [List.append_nil] at none
      rw [wordsFrom_append_blank isBlank, none]
      exact List.append_nil _

theorem blank_takeWhile (text : List Char) : Blank (text.takeWhile isBlank) :=
  fun _ member => List.mem_takeWhile_imp member

theorem exists_trimChars (text : List Char) :
    ∃ lead tail, text = lead ++ trimChars text ++ tail ∧ Blank lead ∧ Blank tail := by
  refine ⟨text.takeWhile isBlank, ((text.dropWhile isBlank).reverse.takeWhile isBlank).reverse, ?_,
    blank_takeWhile text, ?_⟩
  · rw [trimChars, List.append_assoc, ← List.reverse_append, List.takeWhile_append_dropWhile,
      List.reverse_reverse, List.takeWhile_append_dropWhile]
  · intro character member
    exact List.mem_takeWhile_imp (List.mem_reverse.mp member)

theorem wordsFrom_trimChars (text : List Char) : wordsFrom [] (trimChars text) = wordsFrom [] text := by
  obtain ⟨lead, tail, split, leading, trailing⟩ := exists_trimChars text
  conv => rhs; rw [split]
  rw [wordsFrom_append_of_blank trailing, wordsFrom_blank_append leading]

theorem words_trim (text : String) : words (trim text) = words text := by
  rw [words, words, trim, String.toList_ofList, wordsFrom_trimChars]

theorem not_isBlank_of_dropWhile {rest : List Char} {character : Char}
    (found : text.dropWhile isBlank = character :: rest) : isBlank character = false := by
  have stopped := List.head?_dropWhile_not isBlank text
  rw [found] at stopped
  simpa using stopped

theorem not_isBlank_of_trimChars_cons {rest : List Char} {character : Char}
    (trimmed : trimChars text = character :: rest) : isBlank character = false := by
  have opens : trimChars text <+: text.dropWhile isBlank := by
    rw [trimChars, ← List.reverse_suffix, List.reverse_reverse]
    exact List.dropWhile_suffix isBlank
  rw [trimmed] at opens
  obtain ⟨more, whole⟩ := opens
  exact not_isBlank_of_dropWhile whole.symm

theorem not_isBlank_of_trimChars_concat {front : List Char} {character : Char}
    (trimmed : trimChars text = front ++ [character]) : isBlank character = false := by
  have ends : (text.dropWhile isBlank).reverse.dropWhile isBlank = character :: front.reverse := by
    rw [trimChars, List.reverse_eq_iff] at trimmed
    rw [trimmed, List.reverse_append]
    rfl
  exact not_isBlank_of_dropWhile ends

theorem wordsFrom_cons_ne_nil (character : Char) (current text : List Char) :
    wordsFrom (character :: current) text ≠ [] := by
  induction text generalizing character current with
  | nil => simp [wordsFrom]
  | cons next text ih =>
      rw [wordsFrom]
      split
      · simp
      · exact ih next (character :: current)

theorem wordsFrom_eq_nil_iff : wordsFrom [] text = [] ↔ Blank text := by
  constructor
  · intro none
    induction text with
    | nil => simp [Blank]
    | cons character text ih =>
        cases blank : isBlank character with
        | true =>
            rw [wordsFrom, if_pos blank] at none
            exact List.forall_mem_cons.mpr ⟨blank, ih none⟩
        | false =>
            rw [wordsFrom, if_neg (by simp [blank])] at none
            exact absurd none (wordsFrom_cons_ne_nil character [] text)
  · intro blanks
    have none := wordsFrom_blank_append blanks []
    rwa [List.append_nil] at none

theorem trimChars_eq_nil_iff : trimChars text = [] ↔ Blank text := by
  constructor
  · intro none
    rw [← wordsFrom_eq_nil_iff, ← wordsFrom_trimChars, none]
    rfl
  · intro blanks
    rw [trimChars, List.dropWhile_eq_nil_iff.mpr blanks]
    rfl

theorem wordsFrom_ending_ne_nil {front ending : List Char} (trimmed : trimChars text = front ++ ending)
    (nonempty : ending ≠ []) : wordsFrom [] ending ≠ [] := by
  intro none
  have blanks := wordsFrom_eq_nil_iff.mp none
  have split : trimChars text = front ++ ending.dropLast ++ [ending.getLast nonempty] := by
    rw [trimmed, List.append_assoc, List.dropLast_concat_getLast]
  have last := not_isBlank_of_trimChars_concat split
  rw [blanks _ (List.getLast_mem nonempty)] at last
  cases last

/-- The first word of a trimmed text opens it. Behind it there is nothing, or a blank and other words. -/
theorem exists_first_word (nonempty : trimChars text ≠ []) :
    ∃ word more, trimChars text = word ++ more ∧ word ≠ [] ∧ Solid word ∧
      wordsFrom [] text = word :: wordsFrom [] more ∧
      (more = [] ∨ ∃ blank rest, more = blank :: rest ∧ isBlank blank = true ∧
        wordsFrom [] more ≠ []) := by
  have split := List.takeWhile_append_dropWhile (p := (!isBlank ·)) (l := trimChars text)
  obtain ⟨word, openWord⟩ : ∃ word, (trimChars text).takeWhile (!isBlank ·) = word := ⟨_, rfl⟩
  obtain ⟨more, behind⟩ : ∃ more, (trimChars text).dropWhile (!isBlank ·) = more := ⟨_, rfl⟩
  rw [openWord, behind] at split
  have solid : Solid word := by
    intro character member
    rw [← openWord] at member
    simpa using List.mem_takeWhile_imp member
  have begun : word ≠ [] := by
    cases trimmed : trimChars text with
    | nil => exact absurd trimmed nonempty
    | cons character rest =>
        rw [trimmed, List.takeWhile_cons_of_pos (by simp [not_isBlank_of_trimChars_cons trimmed])]
          at openWord
        rw [← openWord]
        simp
  have words : wordsFrom [] word = [word] := by rw [wordsFrom_of_solid solid, if_neg begun]
  refine ⟨word, more, split.symm, begun, solid, ?_⟩
  rw [← wordsFrom_trimChars, ← split]
  cases more with
  | nil =>
      rw [List.append_nil, words]
      exact ⟨rfl, Or.inl rfl⟩
  | cons blank rest =>
      have stopped := List.head?_dropWhile_not (!isBlank ·) (trimChars text)
      rw [behind] at stopped
      have isBlank : isBlank blank = true := by simpa using stopped
      have alone := wordsFrom_append_blank isBlank [] [] rest
      refine ⟨?_, Or.inr ⟨blank, rest, rfl, isBlank, ?_⟩⟩
      · rw [wordsFrom_append_blank isBlank, words]
        exact congrArg (word :: ·) alone.symm
      · exact wordsFrom_ending_ne_nil split.symm (List.cons_ne_nil blank rest)

end Text

end ContingentPlan
