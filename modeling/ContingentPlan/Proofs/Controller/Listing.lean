import ContingentPlan.Controller.Program
import ContingentPlan.Proofs.Text.Identifier
import ContingentPlan.Proofs.Text.Pieces

/-!
A reader of programs that sees nothing but the text. It cuts the text into lines and the lists on the
lines into names, and gathers what stands between the header and the end of a module into a listing. It
refuses a text that is not made of such listings. What a line says is read back from its text, whatever
its margin and with or without a semicolon.
-/

namespace ContingentPlan

/-- The words that a list of names can follow. -/
inductive Keyword
  | input
  | output
  | signal
  | run
  | await
  | emit
deriving DecidableEq, Repr

structure Clause where
  keyword : Keyword
  names : List String
deriving DecidableEq, Repr

inductive Line
  | header (name : String)
  | clause (clause : Clause)
  | mark (text : String)
  | finish
deriving DecidableEq, Repr

namespace Keyword

def word : Keyword → String
  | input => "input"
  | output => "output"
  | signal => "signal"
  | run => "run"
  | await => "await"
  | emit => "emit"

def ofWord? (word : String) : Option Keyword :=
  [input, output, signal, run, await, emit].find? (·.word == word)

def names? (keyword : Keyword) (rest : List Char) : Option (List String) :=
  match keyword with
  | await =>
      match Text.dropOpening ['['] rest with
      | some group => (Text.dropEnding "]" group).map (Text.pieces " or ")
      | none => some (Text.pieces " or " rest)
  | signal => (Text.dropEnding " in" rest).map (Text.pieces ", ")
  | _ => some (Text.pieces ", " rest)

end Keyword

namespace Line

def marks : List String := ["", "nothing", "[", "||", "]", "end signal"]

def ofChars? (text : List Char) : Option Line :=
  let word := String.ofList (text.takeWhile (· ≠ ' '))
  let rest := (text.dropWhile (· ≠ ' ')).drop 1
  match Keyword.ofWord? word with
  | some keyword => (keyword.names? rest).map fun names => .clause { keyword, names }
  | none =>
      if word = "module" then (Text.dropEnding ":" rest).map (.header ∘ String.ofList)
      else if String.ofList text ∈ marks then some (.mark (String.ofList text))
      else if String.ofList text = "end module" then some .finish
      else none

def stripped (line : String) : List Char :=
  (line.toList.dropWhile (· == ' ')).filter (· ≠ ';')

def ofText? (line : String) : Option Line := ofChars? (stripped line)

end Line

namespace Line

def clause? : Line → Option Clause
  | clause said => some said
  | _ => none

def isInner : Line → Bool
  | header _ => false
  | finish => false
  | _ => true

end Line

/-- A module as it is read: its name and what its lines list, in order. -/
structure Listing where
  name : String
  clauses : List Clause := []
deriving DecidableEq, Repr

namespace Listing

def add (listing : Listing) (clause : Clause) : Listing :=
  { listing with clauses := listing.clauses ++ [clause] }

def names (listing : Listing) (keyword : Keyword) : List String :=
  listing.clauses.flatMap fun clause => if clause.keyword = keyword then clause.names else []

/-- Gathers lines into listings; the listing that is open, if any, comes first. Only empty lines may
stand between listings. -/
def ofLines? : Option Listing → List Line → Option (List Listing)
  | none, [] => some []
  | some _, [] => none
  | none, .header name :: lines => ofLines? (some { name }) lines
  | none, .mark text :: lines => if text = "" then ofLines? none lines else none
  | none, .clause _ :: _ => none
  | none, .finish :: _ => none
  | some _, .header _ :: _ => none
  | some listing, .mark _ :: lines => ofLines? (some listing) lines
  | some listing, .clause clause :: lines => ofLines? (some (listing.add clause)) lines
  | some listing, .finish :: lines => (ofLines? none lines).map (listing :: ·)

theorem ofLines?_append {lines : List Line} (inner : ∀ line ∈ lines, line.isInner = true)
    (listing : Listing) (rest : List Line) :
    ofLines? (some listing) (lines ++ rest) =
      ofLines?
        (some { listing with clauses := listing.clauses ++ lines.filterMap Line.clause? }) rest := by
  induction lines generalizing listing with
  | nil => simp
  | cons line lines ih =>
      have later := ih fun line member => inner line (List.mem_cons_of_mem _ member)
      cases line with
      | header name => cases inner _ List.mem_cons_self
      | clause said =>
          rw [List.cons_append, ofLines?, later]
          simp [add, Line.clause?]
      | mark text =>
          rw [List.cons_append, ofLines?, later, List.filterMap_cons_none rfl]
      | finish => cases inner _ List.mem_cons_self

def ofProgram? (program : String) : Option (List Listing) :=
  ((Text.lines program).mapM Line.ofText?).bind (ofLines? none)

end Listing

namespace Clause

def Legal (clause : Clause) : Prop :=
  clause.names ≠ [] ∧ ∀ name ∈ clause.names, Text.IsIdentifier name

def alternatives : List String → String
  | [name] => name
  | names => "[" ++ " or ".intercalate names ++ "]"

def list (clause : Clause) : String :=
  match clause.keyword with
  | .await => alternatives clause.names
  | .signal => commaSeparated clause.names ++ " in"
  | _ => commaSeparated clause.names

def text (clause : Clause) : String := clause.keyword.word ++ " " ++ clause.list

end Clause

namespace Line

def Legal : Line → Prop
  | header name => Text.IsIdentifier name
  | clause said => said.Legal
  | mark text => text ∈ marks
  | finish => True

def text : Line → String
  | header name => "module " ++ name ++ ":"
  | clause said => said.text
  | mark text => text
  | finish => "end module"

end Line

structure Row where
  margin : String
  line : Line
  ended : Bool := false

namespace Row

structure Legal (row : Row) : Prop where
  margin : ∀ character ∈ row.margin.toList, character = ' '
  line : row.line.Legal

def text (row : Row) : String := row.margin ++ row.line.text ++ if row.ended then ";" else ""

end Row

def isLineChar (character : Char) : Bool :=
  Text.isIdentifierChar character || character ∈ [' ', ',', ':', '[', ']', '|']

def IsPlain (text : String) : Prop := ∀ character ∈ text.toList, isLineChar character = true

instance (text : String) : Decidable (IsPlain text) :=
  decidable_of_iff (text.toList.all isLineChar = true) List.all_eq_true

theorem toNat_lt_of_isLineChar {character : Char} (plain : isLineChar character = true) :
    character.toNat < 0x80 := by
  rw [isLineChar, Bool.or_eq_true, decide_eq_true_eq] at plain
  rcases plain with legal | separating
  · exact Text.toNat_lt_of_isIdentifierChar legal
  · simp only [List.mem_cons, List.not_mem_nil, or_false] at separating
    rcases separating with rfl | rfl | rfl | rfl | rfl | rfl <;> decide

theorem IsPlain.append {text behind : String} (plain : IsPlain text) (plainToo : IsPlain behind) :
    IsPlain (text ++ behind) := by
  intro character member
  rw [String.toList_append, List.mem_append] at member
  rcases member with member | member
  · exact plain character member
  · exact plainToo character member

theorem isPlain_of_isIdentifier {name : String} (legal : Text.IsIdentifier name) :
    IsPlain name := by
  intro character member
  simp [isLineChar, legal.chars character member]

theorem IsPlain.intercalate {separator : String} (plain : IsPlain separator) {names : List String}
    (legal : ∀ name ∈ names, Text.IsIdentifier name) : IsPlain (separator.intercalate names) := by
  induction names with
  | nil => simp [IsPlain]
  | cons name names ih =>
      have later := ih fun name member => legal name (List.mem_cons_of_mem _ member)
      have whole := isPlain_of_isIdentifier (legal name List.mem_cons_self)
      cases names with
      | nil => rwa [String.intercalate_singleton]
      | cons second names =>
          rw [String.intercalate_cons_cons]
          exact (whole.append plain).append later

theorem not_mem_of_isIdentifier {name : String} (legal : Text.IsIdentifier name) {character : Char}
    (foreign : Text.isIdentifierChar character = false) : character ∉ name.toList := by
  intro member
  rw [legal.chars character member] at foreign
  cases foreign

theorem Keyword.isPlain_word (keyword : Keyword) : IsPlain keyword.word := by
  cases keyword <;> decide +kernel

namespace Clause

variable {clause : Clause}

theorem isPlain_list (legal : clause.Legal) : IsPlain clause.list := by
  have commas := (show IsPlain ", " by decide).intercalate legal.2
  have ors := (show IsPlain " or " by decide).intercalate legal.2
  obtain ⟨keyword, names⟩ := clause
  cases keyword with
  | await =>
      match names with
      | [] => exact absurd rfl legal.1
      | [name] => exact isPlain_of_isIdentifier (legal.2 name List.mem_cons_self)
      | first :: second :: names =>
          exact ((show IsPlain "[" by decide).append ors).append (show IsPlain "]" by decide)
  | signal => exact commas.append (show IsPlain " in" by decide)
  | input => exact commas
  | output => exact commas
  | run => exact commas
  | emit => exact commas

theorem names?_list (legal : clause.Legal) :
    clause.keyword.names? clause.list.toList = some clause.names := by
  have commas : Text.pieces ", " (commaSeparated clause.names).toList = clause.names :=
    Text.pieces_intercalate legal.1 (show ", ".toList = ',' :: [' '] from rfl)
      fun name member => not_mem_of_isIdentifier (legal.2 name member) (by decide)
  have ors : Text.pieces " or " (" or ".intercalate clause.names).toList = clause.names :=
    Text.pieces_intercalate legal.1 (show " or ".toList = ' ' :: ['o', 'r', ' '] from rfl)
      fun name member => not_mem_of_isIdentifier (legal.2 name member) (by decide)
  obtain ⟨keyword, names⟩ := clause
  cases keyword with
  | await =>
      match names with
      | [] => exact absurd rfl legal.1
      | [name] =>
          obtain ⟨letter, rest, begins, isLetter, -⟩ := legal.2 name List.mem_cons_self
          have bare : letter ≠ '[' := by
            rintro rfl
            cases isLetter
          have unopened : Text.dropOpening ['['] name.toList = none := by
            rw [begins, Text.dropOpening, if_neg bare]
          simpa [Keyword.names?, list, alternatives, unopened] using ors
      | first :: second :: names =>
          have grouped : (alternatives (first :: second :: names)).toList =
              '[' :: ((" or ".intercalate (first :: second :: names)).toList ++ "]".toList) := by
            rw [alternatives, String.toList_append, String.toList_append]
            · rfl
            · simp
          dsimp only [Keyword.names?, list]
          rw [grouped, Text.dropOpening, if_pos rfl, Text.dropOpening]
          dsimp only
          rw [Text.dropEnding_append, Option.map_some, ors]
  | signal =>
      dsimp only [Keyword.names?, list]
      rw [String.toList_append, Text.dropEnding_append, Option.map_some, commas]
  | input => exact congrArg some commas
  | output => exact congrArg some commas
  | run => exact congrArg some commas
  | emit => exact congrArg some commas

end Clause

theorem Keyword.ofWord?_word (keyword : Keyword) : ofWord? keyword.word = some keyword := by
  cases keyword <;> decide +kernel

theorem Keyword.solid_word (keyword : Keyword) : ' ' ∉ keyword.word.toList := by
  cases keyword <;> decide +kernel

namespace Line

theorem ofChars?_word {word : List Char} (solid : ' ' ∉ word) (rest : List Char) :
    (word ++ ' ' :: rest).takeWhile (· ≠ ' ') = word ∧
      ((word ++ ' ' :: rest).dropWhile (· ≠ ' ')).drop 1 = rest := by
  have passed : ∀ character ∈ word, decide (character ≠ ' ') = true := by
    intro character member
    simpa using fun same : character = ' ' => solid (same ▸ member)
  rw [List.takeWhile_append_of_pos passed, List.dropWhile_append_of_pos passed]
  simp

theorem ofChars?_text {line : Line} (legal : line.Legal) : ofChars? line.text.toList = some line := by
  cases line with
  | header name =>
      have chars : (text (.header name)).toList =
          "module".toList ++ ' ' :: (name.toList ++ ":".toList) := by
        simp [text]
      obtain ⟨word, rest⟩ := ofChars?_word (show ' ' ∉ "module".toList by decide)
        (name.toList ++ ":".toList)
      have noKeyword : Keyword.ofWord? "module" = none := by decide +kernel
      rw [chars, ofChars?, word, rest, String.ofList_toList, noKeyword]
      dsimp only
      rw [if_pos rfl, Text.dropEnding_append]
      simp
  | clause said =>
      have chars : (text (.clause said)).toList =
          said.keyword.word.toList ++ ' ' :: said.list.toList := by
        simp [text, Clause.text]
      obtain ⟨word, rest⟩ := ofChars?_word said.keyword.solid_word said.list.toList
      rw [chars, ofChars?, word, rest, String.ofList_toList, said.keyword.ofWord?_word]
      dsimp only
      rw [said.names?_list legal]
      rfl
  | mark text =>
      have known : ∀ text ∈ marks, ofChars? text.toList = some (.mark text) := by decide +kernel
      exact known text legal
  | finish => decide +kernel

theorem isPlain_text {line : Line} (legal : line.Legal) : IsPlain line.text := by
  cases line with
  | header name =>
      exact ((show IsPlain "module " by decide).append (isPlain_of_isIdentifier legal)).append
        (show IsPlain ":" by decide)
  | clause said =>
      exact (said.keyword.isPlain_word.append (show IsPlain " " by decide)).append
        (said.isPlain_list legal)
  | mark text =>
      have known : ∀ text ∈ marks, IsPlain text := by decide +kernel
      exact known text legal
  | finish => exact (show IsPlain "end module" by decide +kernel)

theorem head?_text {line : Line} (legal : line.Legal) : line.text.toList.head? ≠ some ' ' := by
  cases line with
  | header name => simp [text]
  | clause said =>
      obtain ⟨keyword, names⟩ := said
      cases keyword <;> simp [text, Clause.text, Keyword.word]
  | mark text =>
      have known : ∀ text ∈ marks, text.toList.head? ≠ some ' ' := by decide +kernel
      exact known text legal
  | finish => decide

end Line

namespace Row

variable {row : Row}

theorem stripped_text (legal : row.Legal) : Line.stripped row.text = row.line.text.toList := by
  have kept : row.line.text.toList.filter (· ≠ ';') = row.line.text.toList := by
    rw [List.filter_eq_self]
    intro character member
    have plain := Line.isPlain_text legal.line character member
    simpa using fun same : character = ';' => absurd (same ▸ plain) (by decide)
  have margin : ∀ character ∈ row.margin.toList, (character == ' ') = true := by
    simpa using legal.margin
  have bare : (row.line.text.toList ++ (if row.ended then ";" else "").toList).dropWhile (· == ' ') =
      row.line.text.toList ++ (if row.ended then ";" else "").toList := by
    have begins := Line.head?_text legal.line
    cases chars : row.line.text.toList with
    | nil => split <;> rfl
    | cons first rest =>
        rw [chars] at begins
        rw [List.cons_append, List.dropWhile_cons_of_neg (by simpa using begins)]
  rw [Line.stripped, text, String.toList_append, String.toList_append, List.append_assoc,
    List.dropWhile_append_of_pos margin, bare, List.filter_append, kept]
  split <;> simp

theorem ofText?_text (legal : row.Legal) : Line.ofText? row.text = some row.line := by
  rw [Line.ofText?, stripped_text legal, Line.ofChars?_text legal.line]

theorem isLineChar_or_eq_semicolon (legal : row.Legal) :
    ∀ character ∈ row.text.toList, isLineChar character = true ∨ character = ';' := by
  intro character member
  simp only [text, String.toList_append, List.mem_append] at member
  rcases member with (member | member) | member
  · rw [legal.margin character member]
    exact Or.inl (by decide)
  · exact Or.inl (Line.isPlain_text legal.line character member)
  · split at member <;> simp_all

theorem ascii_joinLines {rows : List Row} (legal : ∀ row ∈ rows, row.Legal) :
    ∀ character ∈ (Text.joinLines (rows.map text)).toList, character.toNat < 0x80 := by
  intro character member
  simp only [Text.joinLines, String.toList_join, List.mem_flatMap, List.mem_map] at member
  obtain ⟨_, ⟨_, ⟨row, among, rfl⟩, rfl⟩, within⟩ := member
  rw [String.toList_append, List.mem_append] at within
  rcases within with own | ends
  · rcases isLineChar_or_eq_semicolon (legal row among) character own with plain | rfl
    · exact toNat_lt_of_isLineChar plain
    · decide
  · rw [List.mem_singleton.mp ends]
    decide

theorem mapM_ofText?_text {rows : List Row} (legal : ∀ row ∈ rows, row.Legal) :
    (rows.map text).mapM Line.ofText? = some (rows.map Row.line) := by
  induction rows with
  | nil => rfl
  | cons row rows ih =>
      have later := ih fun row member => legal row (List.mem_cons_of_mem _ member)
      rw [List.map_cons, List.mapM_cons, ofText?_text (legal row List.mem_cons_self), later]
      rfl

theorem ofProgram?_joinLines {rows : List Row} (legal : ∀ row ∈ rows, row.Legal) :
    Listing.ofProgram? (Text.joinLines (rows.map text)) =
      Listing.ofLines? none (rows.map Row.line) := by
  have plain : ∀ line ∈ rows.map text, '\n' ∉ line.toList ∧ '\r' ∉ line.toList := by
    intro line member
    obtain ⟨row, among, rfl⟩ := List.mem_map.mp member
    have chars := isLineChar_or_eq_semicolon (legal row among)
    exact ⟨fun broken => absurd (chars _ broken) (by decide),
      fun returned => absurd (chars _ returned) (by decide)⟩
  rw [Listing.ofProgram?, Text.lines_joinLines plain, mapM_ofText?_text legal, Option.bind_some]

end Row

end ContingentPlan
