import ContingentPlan.Proofs.Reading.Run
import ContingentPlan.Proofs.Text.Lowercase
import ContingentPlan.Proofs.Trace.Announcement

/-!
The token of a line is settled by the words behind its first colon. The lines that count are those of
the first plan block, up to the blank ones.
-/

namespace ContingentPlan

open Text

/-- The words behind the first colon of a line, all in lower case; nothing where there is no colon or no
word behind it. -/
def lineWords? (line : String) : Option (List String) :=
  ((behindColon? (lowercase line).toList).map fun rest => words (String.ofList rest)).filter (· ≠ [])

def wordLists? (lines : List String) : Option (List (Option (List String))) :=
  match lines.dropWhile (!announcesPlan ·) with
  | [] => none
  | _ :: rest =>
      some (((rest.takeWhile fun line => !opensWith blockEnd (normalLine line)).filter
        (trim · ≠ "")).map lineWords?)

def Token.ofWords? : List String → Option Token
  | [] => none
  | operator :: arguments =>
      if operator = "ramificate" ∧ arguments = [] then some .ramificate
      else if opensWith "shed" operator then some .shed
      else if opensWith "pop" operator then some .pop
      else if opensWith "assume" operator then some .assume
      else some (.action { operator, arguments })

section Opening

variable {opening word rest : List Char} {blank : Char}

theorem isSome_dropOpening_append_blank (solid : Solid opening) (isBlank : isBlank blank = true) :
    (dropOpening opening (word ++ blank :: rest)).isSome = (dropOpening opening word).isSome := by
  induction opening generalizing word with
  | nil => rfl
  | cons expected opening ih =>
      obtain ⟨own, others⟩ := List.forall_mem_cons.mp solid
      cases word with
      | nil =>
          have different : blank ≠ expected := by
            rintro rfl
            rw [own] at isBlank
            cases isBlank
          simp [dropOpening, different]
      | cons character word =>
          rw [List.cons_append, dropOpening, dropOpening]
          split
          · exact ih others
          · rfl

end Opening

theorem Token.ofText?_trim {text : String} (worded : words text ≠ []) :
    Token.ofText? (trim text) = Token.ofWords? (words text) := by
  have nonempty : trimChars text.toList ≠ [] := by
    intro none
    rw [words, wordsFrom_eq_nil_iff.mpr (trimChars_eq_nil_iff.mp none)] at worded
    exact worded rfl
  obtain ⟨word, more, trimmed, -, solid, cut, behind⟩ := exists_first_word nonempty
  have list : words text = String.ofList word :: (wordsFrom [] more).map String.ofList := by
    rw [words, cut, List.map_cons]
  have whole : trim text = String.ofList (word ++ more) := by rw [trim, trimmed]
  have opens {opening : String} (solid : Solid opening.toList) :
      opensWith opening (trim text) = opensWith opening (String.ofList word) := by
    rw [whole, opensWith, opensWith, afterOpening?, afterOpening?, Option.isSome_map,
      Option.isSome_map, String.toList_ofList, String.toList_ofList]
    rcases behind with rfl | ⟨blank, rest, rfl, isBlank, -⟩
    · rw [List.append_nil]
    · exact isSome_dropOpening_append_blank solid isBlank
  have ramificate : trim text = "ramificate" ↔
      String.ofList word = "ramificate" ∧ (wordsFrom [] more).map String.ofList = [] := by
    rw [whole]
    rcases behind with rfl | ⟨blank, rest, rfl, isBlank, others⟩
    · simp [wordsFrom]
    · constructor
      · intro same
        have all := congrArg String.toList same
        rw [String.toList_ofList] at all
        have member : blank ∈ "ramificate".toList := by
          rw [← all]
          simp
        have plain : Solid "ramificate".toList := by decide +kernel
        rw [plain blank member] at isBlank
        cases isBlank
      · rintro ⟨-, none⟩
        exact absurd (List.map_eq_nil_iff.mp none) others
  have signature : Signature.ofText? (trim text) =
      some { operator := String.ofList word
             arguments := (wordsFrom [] more).map String.ofList } := by
    rw [Signature.ofText?, words_trim, list]
  rw [Token.ofText?, list, Token.ofWords?, opens (by decide +kernel), opens (by decide +kernel),
    opens (by decide +kernel), signature]
  simp only [ramificate, Option.map_some]

theorem tokenText?_eq (line : String) :
    tokenText? line = ((behindColon? line.toList).map fun rest => trim (String.ofList rest)).filter
      (· ≠ "") := by
  rw [tokenText?, behindColon?]
  cases line.toList.dropWhile (· ≠ ':') with
  | nil => rfl
  | cons colon rest =>
      dsimp only [Option.map_some, Option.filter]
      split <;> simp_all

theorem trim_eq_empty_iff (text : String) : trim text = "" ↔ words text = [] := by
  rw [words, List.map_eq_nil_iff, wordsFrom_eq_nil_iff, ← trimChars_eq_nil_iff, trim,
    ← String.toList_eq_nil_iff, String.toList_ofList]

theorem token?_ofNumbered (line : String × Nat) :
    (TraceLine.ofNumbered line).token? = (lineWords? line.1).bind Token.ofWords? := by
  obtain ⟨lead, tail, split, leading, trailing⟩ := exists_lowercase_trim line.1
  have text : (TraceLine.ofNumbered line).text = lowercase (trim line.1) := rfl
  rw [TraceLine.token?, text, tokenText?_eq, lineWords?, split,
    behindColon?_of_blanks leading trailing]
  cases behindColon? (lowercase (trim line.1)).toList with
  | none => rfl
  | some rest =>
      have same : words (String.ofList (rest ++ tail)) = words (String.ofList rest) := by
        rw [words, words, String.toList_ofList, String.toList_ofList,
          wordsFrom_append_of_blank trailing]
      rw [Option.map_some, Option.map_some, Option.map_some, same]
      by_cases none : words (String.ofList rest) = []
      · have empty := (trim_eq_empty_iff _).mpr none
        simp [Option.filter, none, empty]
      · have filled : trim (String.ofList rest) ≠ "" :=
          fun empty => none ((trim_eq_empty_iff _).mp empty)
        simp [Option.filter, none, filled, Token.ofText?_trim none]

theorem lowercase_eq_empty_iff (text : String) : lowercase text = "" ↔ text = "" := by
  rw [lowercase, ← String.toList_eq_nil_iff, String.toList_ofList, lowercaseFrom_eq_nil_iff,
    String.toList_eq_nil_iff]

theorem map_token?_blockAmong (numbered : List (String × Nat)) :
    (blockAmong numbered).map TraceLine.token? =
      ((((numbered.map Prod.fst).takeWhile fun line => !opensWith blockEnd (normalLine line)).filter
        (trim · ≠ "")).map lineWords?).map (·.bind Token.ofWords?) := by
  have filled : ((fun line : TraceLine => decide (line.text ≠ "")) ∘ TraceLine.ofNumbered) =
      (fun line => decide (trim line ≠ "")) ∘ Prod.fst := by
    funext line
    have text : (TraceLine.ofNumbered line).text = lowercase (trim line.1) := rfl
    simp [text, lowercase_eq_empty_iff]
  have ends : ((fun line : TraceLine => !line.ends) ∘ TraceLine.ofNumbered) =
      (fun line => !opensWith blockEnd (normalLine line)) ∘ Prod.fst := rfl
  rw [blockAmong, List.takeWhile_map, List.takeWhile_map, List.filter_map, List.filter_map, filled,
    ends, List.map_map, List.map_map, List.map_map]
  apply List.map_congr_left
  intro line _
  rw [Function.comp_apply, token?_ofNumbered]
  rfl

theorem map_token?_planBlock? (trace : String) :
    (planBlock? trace).map (·.map TraceLine.token?) =
      (wordLists? (lines trace)).map (·.map (·.bind Token.ofWords?)) := by
  have plain : (lines trace).dropWhile (!announcesPlan ·) =
      (((lines trace).zipIdx 1).dropWhile fun line => !announcesPlan line.1).map Prod.fst := by
    conv => lhs; rw [← List.zipIdx_map_fst 1 (lines trace), List.dropWhile_map]
    rfl
  rw [wordLists?, plain, planBlock?]
  cases ((lines trace).zipIdx 1).dropWhile fun line => !announcesPlan line.1 with
  | nil => rfl
  | cons first rest => exact congrArg some (map_token?_blockAmong rest)

section Lines

variable {preamble block ending : List String} {announcement : String}

/-- Neither what stands before the announcement counts, nor blank lines, nor what follows the time
spent. -/
theorem wordLists?_eq (first : ∀ line ∈ preamble, announcesPlan line = false)
    (announces : announcesPlan announcement = true)
    (goesOn : ∀ line ∈ block, opensWith blockEnd (normalLine line) = false)
    (ends : ∀ line ∈ ending.head?, opensWith blockEnd (normalLine line) = true) :
    wordLists? (preamble ++ announcement :: (block ++ ending)) =
      some ((block.filter (trim · ≠ "")).map lineWords?) := by
  have stops : ending.takeWhile (fun line => !opensWith blockEnd (normalLine line)) = [] := by
    cases ending with
    | nil => rfl
    | cons line others => simp [ends line rfl]
  have passed : ∀ line ∈ preamble, (!announcesPlan line) = true := by
    intro line member
    rw [first line member]
    rfl
  have taken : ∀ line ∈ block, (!opensWith blockEnd (normalLine line)) = true := by
    intro line member
    rw [goesOn line member]
    rfl
  rw [wordLists?, List.dropWhile_append_of_pos passed,
    List.dropWhile_cons_of_neg (by simp [announces])]
  dsimp only
  rw [List.takeWhile_append_of_pos taken, stops, List.append_nil]

end Lines

/-- Of the step before the colon, the words of the line do not show more than it settles. -/
theorem lineWords?_eq {step : String} (absent : ':' ∉ step.toList) (rest : String) :
    lineWords? (step ++ ":" ++ rest) =
      (some ((words (String.ofList (settled step.toList rest.toList))).map lowercase)).filter
        (· ≠ []) := by
  have line : (lowercase (step ++ ":" ++ rest)).toList =
      lowercaseFrom [] (step.toList ++ ':' :: rest.toList) := by
    simp [lowercase]
  rw [lineWords?, line, behindColon?_lowercase absent, ← words_lowercase, lowercase,
    String.toList_ofList]
  rfl

end ContingentPlan
