import ContingentPlan.Text.Lines
import ContingentPlan.Text.Opening

/-!
Cutting a text at its line feeds and at a separator. Lines and names that hold neither are found again
in the text that joins them.
-/

namespace ContingentPlan

namespace Text

/-- The pieces of a text between separators. The current piece began with the characters `current`,
last one first; `passing` characters of a separator are still to be passed. -/
def piecesFrom (separator : List Char) :
    (passing : Nat) → (current : List Char) → List Char → List (List Char)
  | _, current, [] => [current.reverse]
  | passing + 1, current, _ :: rest => piecesFrom separator passing current rest
  | 0, current, character :: rest =>
      if separator.isPrefixOf (character :: rest) then
        current.reverse :: piecesFrom separator (separator.length - 1) [] rest
      else piecesFrom separator 0 (character :: current) rest

def pieces (separator : String) (text : List Char) : List String :=
  (piecesFrom separator.toList 0 [] text).map String.ofList

def dropEnding (ending : String) (text : List Char) : Option (List Char) :=
  (dropOpening ending.toList.reverse text.reverse).map List.reverse

variable {opening rest separator piece current : List Char} {first : Char}

theorem dropOpening_append (opening rest : List Char) :
    dropOpening opening (opening ++ rest) = some rest := by
  induction opening with
  | nil => rfl
  | cons expected opening ih => simp [dropOpening, ih]

theorem dropOpening_eq_some_iff {text : List Char} :
    dropOpening opening text = some rest ↔ text = opening ++ rest := by
  constructor
  · intro opens
    fun_induction dropOpening opening text with
    | case1 text => exact Option.some.inj opens
    | case2 => cases opens
    | case3 expected opening text ih => rw [ih opens, List.cons_append]
    | case4 => cases opens
  · rintro rfl
    exact dropOpening_append opening rest

theorem afterOpening?_eq_some_iff {opening text rest : String} :
    afterOpening? opening text = some rest ↔ text = opening ++ rest := by
  rw [afterOpening?, Option.map_eq_some_iff, ← String.toList_inj, String.toList_append]
  constructor
  · rintro ⟨letters, opens, rfl⟩
    rw [dropOpening_eq_some_iff.mp opens, String.toList_ofList]
  · intro same
    exact ⟨rest.toList, dropOpening_eq_some_iff.mpr same, String.ofList_toList⟩

theorem dropEnding_append (ending : String) (text : List Char) :
    dropEnding ending (text ++ ending.toList) = some text := by
  rw [dropEnding, List.reverse_append, dropOpening_append, Option.map_some, List.reverse_reverse]

theorem piecesFrom_append (absent : first ∉ piece) :
    piecesFrom (first :: separator) 0 current (piece ++ rest) =
      piecesFrom (first :: separator) 0 (piece.reverse ++ current) rest := by
  induction piece generalizing current with
  | nil => rfl
  | cons character piece ih =>
      rw [List.mem_cons, not_or] at absent
      rw [List.cons_append, piecesFrom, if_neg (by simp [absent.1]), ih absent.2]
      simp

theorem piecesFrom_passing (others : List Char) :
    piecesFrom separator others.length current (others ++ rest) =
      piecesFrom separator 0 current rest := by
  induction others with
  | nil => rfl
  | cons character others ih => rw [List.cons_append, List.length_cons, piecesFrom, ih]

theorem piecesFrom_intercalate {pieces : List (List Char)} (nonempty : pieces ≠ [])
    (absent : ∀ piece ∈ pieces, first ∉ piece) :
    piecesFrom (first :: separator) 0 [] ((first :: separator).intercalate pieces) = pieces := by
  induction pieces with
  | nil => exact absurd rfl nonempty
  | cons piece pieces ih =>
      have whole := absent piece List.mem_cons_self
      cases pieces with
      | nil =>
          have alone := @piecesFrom_append [] separator piece [] first whole
          rw [List.append_nil, List.append_nil] at alone
          rw [List.intercalate_singleton, alone, piecesFrom, List.reverse_reverse]
      | cons second pieces =>
          have later := ih (by simp) fun piece member =>
            absent piece (List.mem_cons_of_mem _ member)
          rw [List.intercalate_cons_cons, List.append_assoc, piecesFrom_append whole,
            List.cons_append, piecesFrom, if_pos (by simp), List.length_cons, Nat.add_sub_cancel,
            piecesFrom_passing, later, List.append_nil, List.reverse_reverse]

theorem pieces_intercalate {separator : String} {names : List String} (nonempty : names ≠ [])
    {first : Char} {others : List Char} (begins : separator.toList = first :: others)
    (absent : ∀ name ∈ names, first ∉ name.toList) :
    pieces separator (separator.intercalate names).toList = names := by
  rw [pieces, String.toList_intercalate, begins, piecesFrom_intercalate (by simpa using nonempty)
    (by simpa using absent), List.map_map]
  simp [Function.comp_def]

def joinLines (lines : List String) : String := String.join (lines.map (· ++ "\n"))

theorem joinLines_cons (line : String) (rest : List String) :
    joinLines (line :: rest) = line ++ "\n" ++ joinLines rest := by
  simp [joinLines]

theorem joinLines_append (first second : List String) :
    joinLines (first ++ second) = joinLines first ++ joinLines second := by
  simp [joinLines]

theorem linesFrom_append_of_unbroken {line : List Char} (unbroken : '\n' ∉ line)
    (current rest : List Char) :
    linesFrom current (line ++ rest) = linesFrom (line.reverse ++ current) rest := by
  induction line generalizing current with
  | nil => rfl
  | cons character line ih =>
      rw [List.mem_cons, not_or] at unbroken
      rw [List.cons_append, linesFrom, if_neg (Ne.symm unbroken.1), ih unbroken.2]
      simp

theorem dropReturn_of_not_mem {line : List Char} (plain : '\r' ∉ line) : dropReturn line = line := by
  cases line with
  | nil => rfl
  | cons character line =>
      rw [dropReturn]
      rintro rest ⟨⟩
      simp at plain

theorem lines_joinLines {lines : List String}
    (plain : ∀ line ∈ lines, '\n' ∉ line.toList ∧ '\r' ∉ line.toList) :
    Text.lines (joinLines lines) = lines := by
  have found : linesFrom [] (joinLines lines).toList = lines.map String.toList := by
    induction lines with
    | nil => rfl
    | cons line lines ih =>
        obtain ⟨unbroken, kept⟩ := plain line List.mem_cons_self
        have later := ih fun line member => plain line (List.mem_cons_of_mem _ member)
        rw [joinLines_cons, String.toList_append, String.toList_append, List.append_assoc,
          linesFrom_append_of_unbroken unbroken, show "\n".toList = ['\n'] from rfl,
          List.singleton_append, linesFrom, if_pos rfl, List.append_nil,
          dropReturn_of_not_mem (by simpa using kept), later, List.reverse_reverse, List.map_cons]
  rw [Text.lines, found, List.map_map]
  simp [Function.comp_def]

end Text

end ContingentPlan
