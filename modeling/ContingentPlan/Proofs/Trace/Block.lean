import ContingentPlan.Trace.Block
import Mathlib.Data.List.TakeWhile

/-!
Texts that go on after a line feed. Their trimmed lines begin with those of the text before it, and a
plan block that is announced there goes on too, unless the time spent has ended it.
-/

namespace ContingentPlan

namespace Text

/-- The line that a text breaks off in is lost when it is empty, and goes on to be a line when a line
feed follows. -/
theorem linesFrom_append_newline (current first : List Char) : ∃ whole last,
    linesFrom current first = whole ++ (if last = [] then [] else [last.reverse]) ∧
    ∀ rest, linesFrom current (first ++ '\n' :: rest) =
      whole ++ (dropReturn last).reverse :: linesFrom [] rest := by
  induction first generalizing current with
  | nil => exact ⟨[], current, by simp [linesFrom], fun rest => by simp [linesFrom]⟩
  | cons character first ih =>
      by_cases ends : character = '\n'
      · obtain ⟨whole, last, broken, goesOn⟩ := ih []
        exact ⟨(dropReturn current).reverse :: whole, last, by simp [linesFrom, ends, broken],
          fun rest => by simp [linesFrom, ends, goesOn]⟩
      · obtain ⟨whole, last, broken, goesOn⟩ := ih (character :: current)
        exact ⟨whole, last, by simp [linesFrom, ends, broken],
          fun rest => by simp [linesFrom, ends, goesOn]⟩

theorem trimChars_concat_blank {blank : Char} (isBlank : isBlank blank = true) (text : List Char) :
    trimChars (text ++ [blank]) = trimChars text := by
  rw [trimChars, trimChars, List.dropWhile_append]
  split
  · rename_i empty
    simp [List.isEmpty_iff.mp empty, isBlank]
  · rw [List.reverse_append, List.reverse_singleton, List.singleton_append,
      List.dropWhile_cons_of_pos isBlank]

theorem trimChars_dropReturn (line : List Char) :
    trimChars (dropReturn line).reverse = trimChars line.reverse := by
  unfold dropReturn
  split
  · rw [List.reverse_cons, trimChars_concat_blank (by decide)]
  · rfl

def trimmedLines (text : String) : List String := (lines text).map trim

theorem trimmedLines_append_newline (first rest : String) :
    ∃ more, trimmedLines (first ++ "\n" ++ rest) = trimmedLines first ++ more := by
  obtain ⟨whole, last, broken, goesOn⟩ := linesFrom_append_newline [] first.toList
  have text : (first ++ "\n" ++ rest).toList = first.toList ++ '\n' :: rest.toList := by simp
  rw [trimmedLines, trimmedLines, lines, lines, text, broken, goesOn]
  by_cases empty : last = []
  · exact ⟨_, by simp [empty]; rfl⟩
  · refine ⟨((linesFrom [] rest.toList).map String.ofList).map trim, ?_⟩
    have same : trim (String.ofList (dropReturn last).reverse) =
        trim (String.ofList last.reverse) := by
      simp [trim, trimChars_dropReturn]
    simp [empty, same]

end Text

def announces (trimmed : String) : Bool :=
  trimmed.toList.map Char.toLower == planAnnouncement.toList

def givesTime (trimmed : String) : Bool := Text.opensWith blockEnd (Text.lowercase trimmed)

theorem announcesPlan_eq (line : String) : announcesPlan line = announces (Text.trim line) := by
  rw [announcesPlan, announces]

theorem opensWith_normalLine_eq (line : String) :
    Text.opensWith blockEnd (normalLine line) = givesTime (Text.trim line) := by
  rw [normalLine, givesTime]

def blockOf (numbered : List (String × Nat)) : List TraceLine :=
  ((numbered.takeWhile (!givesTime ·.1)).map fun line =>
    { number := line.2, text := Text.lowercase line.1 : TraceLine }).filter (·.text ≠ "")

def trimmedBlock? (trimmed : List String) : Option (List TraceLine) :=
  match (trimmed.zipIdx 1).dropWhile (!announces ·.1) with
  | [] => none
  | _ :: rest => some (blockOf rest)

theorem planBlock?_eq_trimmedBlock? (trace : String) :
    planBlock? trace = trimmedBlock? (Text.trimmedLines trace) := by
  unfold planBlock? trimmedBlock? Text.trimmedLines
  have announcing : ((!announces ·.1) ∘ Prod.map Text.trim id : String × Nat → Bool) =
      fun line => !announcesPlan line.1 := by
    funext line
    rw [Function.comp_apply, announcesPlan_eq, Prod.map_fst]
  rw [List.zipIdx_map, List.dropWhile_map, announcing]
  cases ((Text.lines trace).zipIdx 1).dropWhile (fun line => !announcesPlan line.1) with
  | nil => rfl
  | cons first rest =>
      rw [List.map_cons]
      dsimp only
      rw [blockOf, List.takeWhile_map, List.takeWhile_map, List.map_map]
      rfl

theorem blockOf_append (first second : List (String × Nat)) :
    blockOf (first ++ second) =
      blockOf first ++ if first.any (givesTime ·.1) then [] else blockOf second := by
  rw [blockOf, List.takeWhile_append]
  by_cases ended : first.any (givesTime ·.1)
  · have short : (first.takeWhile (!givesTime ·.1)).length ≠ first.length := by
      intro same
      have all := List.takeWhile_eq_self_iff.mp ((List.takeWhile_prefix _).eq_of_length same)
      obtain ⟨line, member, marker⟩ := List.any_eq_true.mp ended
      simpa [marker] using all line member
    rw [if_neg short, if_pos ended, List.append_nil]
    rfl
  · have all : first.takeWhile (!givesTime ·.1) = first := by
      rw [List.takeWhile_eq_self_iff]
      intro line member
      simpa using fun marker => ended (List.any_eq_true.mpr ⟨line, member, marker⟩)
    rw [if_pos (by rw [all]), if_neg ended, List.map_append, List.filter_append, blockOf, blockOf, all]

def BlockEnded (lines : List String) : Prop :=
  ∃ preamble announcement block marker others,
    lines = preamble ++ announcement :: (block ++ marker :: others) ∧
    announcesPlan announcement = true ∧ Text.opensWith blockEnd (normalLine marker) = true

theorem mem_rest_of_dropWhile {α : Type} {passes : α → Bool} {before after rest : List α}
    {stop item first : α} (found : (before ++ stop :: after).dropWhile passes = first :: rest)
    (stops : passes stop = false) (member : item ∈ after) : item ∈ rest := by
  induction before with
  | nil =>
      rw [List.nil_append, List.dropWhile_cons, stops] at found
      cases found
      exact member
  | cons other before ih =>
      rw [List.cons_append, List.dropWhile_cons] at found
      split at found
      · exact ih found
      · cases found
        simp [member]

/-- Whichever announcement is the first one, the time spent stands behind it. -/
theorem BlockEnded.any_givesTime {lines : List String} (ended : BlockEnded lines)
    {first : String × Nat} {rest : List (String × Nat)}
    (found : ((lines.map Text.trim).zipIdx 1).dropWhile (!announces ·.1) = first :: rest) :
    rest.any (givesTime ·.1) = true := by
  obtain ⟨preamble, announcement, block, marker, others, rfl, announced, marks⟩ := ended
  rw [List.map_append, List.zipIdx_append, List.map_cons, List.zipIdx_cons] at found
  have stops : (!announces (Text.trim announcement)) = false := by
    rw [Bool.not_eq_false', ← announcesPlan_eq]
    exact announced
  obtain ⟨number, member⟩ : ∃ number, (Text.trim marker, number) ∈
      ((block ++ marker :: others).map Text.trim).zipIdx
        (1 + (preamble.map Text.trim).length + 1) := by
    rw [List.map_append, List.zipIdx_append, List.map_cons, List.zipIdx_cons]
    exact ⟨_, List.mem_append_right _ List.mem_cons_self⟩
  rw [opensWith_normalLine_eq] at marks
  have behind := mem_rest_of_dropWhile found stops member
  exact List.any_eq_true.mpr ⟨_, behind, marks⟩

theorem BlockEnded.planBlock?_ne_none {trace : String} (ended : BlockEnded (Text.lines trace)) :
    planBlock? trace ≠ none := by
  obtain ⟨preamble, announcement, block, marker, others, lines, announced, -⟩ := ended
  unfold planBlock?
  split
  · rename_i passed
    rw [List.dropWhile_eq_nil_iff, lines, List.zipIdx_append, List.zipIdx_cons] at passed
    have refused := passed _ (List.mem_append_right _ List.mem_cons_self)
    simp [announced] at refused
  · simp

/-- What follows a text goes to the end of its plan block, or is passed over when the block has
ended. -/
theorem exists_planBlock?_append {first longer : String} {block : List TraceLine}
    (goesOn : ∃ more, Text.trimmedLines longer = Text.trimmedLines first ++ more)
    (announced : planBlock? first = some block) :
    ∃ later, planBlock? longer = some (block ++ later) ∧
      (BlockEnded (Text.lines first) → later = []) := by
  obtain ⟨more, lines⟩ := goesOn
  rw [planBlock?_eq_trimmedBlock?, trimmedBlock?] at announced
  rw [planBlock?_eq_trimmedBlock?, trimmedBlock?, lines, List.zipIdx_append, List.dropWhile_append]
  split at announced
  · cases announced
  · rename_i head rest found
    cases announced
    rw [if_neg (by simp [found]), found, List.cons_append]
    dsimp only
    rw [blockOf_append]
    refine ⟨_, rfl, ?_⟩
    intro ended
    exact if_pos (ended.any_givesTime found)

end ContingentPlan
