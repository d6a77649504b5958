import ContingentPlan.Proofs.Text.Digits
import ContingentPlan.Proofs.Toml.Text
import ContingentPlan.Toml.Reader
import Mathlib.Data.List.TakeDrop
import Mathlib.Data.List.TakeWhile

/-!
TOML texts of lines with one pair each. A line is read as its pair whatever lines follow, so that a text
of lines with different keys is read as the record of its pairs.
-/

namespace ContingentPlan.Toml

/-- The text is read as the value wherever it ends a line. It does not begin with a blank. -/
structure Spells (text : List Char) (value : Document) : Prop where
  starts : ∃ first more, text = first :: more ∧ isBlank first = false
  reads : ∀ fuel depth rest,
    readValue? (fuel + 1) depth (text ++ '\n' :: rest) = some (value, '\n' :: rest)

theorem exists_quoteChars (text : List Char) :
    ∃ mark more, quoteChars text = mark :: more ∧ (mark = '"' ∨ mark = '\'') := by
  unfold quoteChars
  dsimp only
  split
  · exact ⟨'"', _, rfl, Or.inl rfl⟩
  split
  · exact ⟨'\'', _, rfl, Or.inr rfl⟩
  split
  · exact ⟨'"', _, rfl, Or.inl rfl⟩
  split
  · exact ⟨'\'', _, rfl, Or.inr rfl⟩
  split
  · exact ⟨'"', _, rfl, Or.inl rfl⟩
  · exact ⟨'"', _, rfl, Or.inl rfl⟩

theorem spells_quote (text : String) : Spells (quote text).toList (.text text) := by
  obtain ⟨mark, more, quoted, quotes⟩ := exists_quoteChars text.toList
  have spelled : (quote text).toList = mark :: more := by
    rw [quote, String.toList_ofList, quoted]
  refine ⟨⟨mark, more, spelled, ?_⟩, ?_⟩
  · rcases quotes with rfl | rfl <;> rfl
  · intro fuel depth rest
    have read : readText? (quoteChars text.toList ++ '\n' :: rest) = some (text.toList, '\n' :: rest) :=
      readText?_quoteChars (by simp) (by simp)
    rw [spelled]
    rw [quoted] at read
    rcases quotes with rfl | rfl
    · rw [List.cons_append, readValue?, ← List.cons_append, read]
      simp
    · rw [List.cons_append, readValue?, ← List.cons_append, read]
      simp

section Numbers

variable {number : Nat}

theorem groupedDigits?_of_all {word : List Char} (nonempty : word ≠ [])
    (digits : ∀ digit ∈ word, Text.isDigit digit = true) :
    groupedDigits? Text.isDigit word = some word := by
  induction word with
  | nil => exact absurd rfl nonempty
  | cons digit word ih =>
      rw [List.forall_mem_cons] at digits
      cases word with
      | nil => simp [groupedDigits?, digits.1]
      | cons next word =>
          have noMark : next ≠ '_' := by
            rintro rfl
            exact absurd (digits.2 '_' List.mem_cons_self) (by decide)
          have rest := ih (List.cons_ne_nil next word) digits.2
          rw [groupedDigits?]
          · simp [digits.1, rest]
          · simp
          · intro others same
            exact noMark (List.cons.inj same).1

theorem wholeDigits?_toDigits (number : Nat) :
    wholeDigits? (Nat.toDigits 10 number) = some (Nat.toDigits 10 number) := by
  rw [wholeDigits?, groupedDigits?_of_all Nat.toDigits_ne_nil fun digit => Text.isDigit_of_mem_toDigits]
  split
  · rename_i second others zeros
    rw [Option.some.injEq] at zeros
    rcases Nat.eq_zero_or_pos number with rfl | positive
    · simp [Nat.toDigits_zero] at zeros
    · exact absurd (by rw [zeros]; rfl) (Text.head?_toDigits positive)
  · rfl

theorem not_mem_toDigits (number : Nat) {character : Char} (other : Text.isDigit character = false) :
    character ∉ Nat.toDigits 10 number := by
  intro member
  rw [Text.isDigit_of_mem_toDigits member] at other
  cases other

theorem cutSign_toDigits (number : Nat) :
    cutSign (Nat.toDigits 10 number) = (false, Nat.toDigits 10 number) := by
  unfold cutSign
  split
  · rename_i word signed
    exact absurd (signed ▸ List.mem_cons_self) (not_mem_toDigits number (by decide))
  · rename_i word signed
    exact absurd (signed ▸ List.mem_cons_self) (not_mem_toDigits number (by decide))
  · rfl

theorem magnitude?_toDigits (number : Nat) : magnitude? (Nat.toDigits 10 number) = some number := by
  have decimal {mark : Char} {word : List Char} (other : Text.isDigit mark = false) :
      Nat.toDigits 10 number ≠ '0' :: mark :: word := by
    intro marked
    exact not_mem_toDigits number other (marked ▸ by simp)
  unfold magnitude?
  split
  · exact absurd ‹_› (decimal (by decide))
  · exact absurd ‹_› (decimal (by decide))
  · exact absurd ‹_› (decimal (by decide))
  · rw [wholeDigits?_toDigits, Option.map_some, Text.valueInBase_toDigits]

theorem integer?_toDigits (fits : number < Nat.pow 2 63) :
    integer? (Nat.toDigits 10 number) = some (number : Int) := by
  have power : Int.pow 2 63 = (Nat.pow 2 63 : Nat) := rfl
  have bounds : -Int.pow 2 63 ≤ (number : Int) ∧ (number : Int) < Int.pow 2 63 :=
    ⟨Int.le_trans (by decide) (Int.natCast_nonneg number), by rw [power]; exact Int.ofNat_lt.mpr fits⟩
  rw [integer?, cutSign_toDigits]
  dsimp only
  rw [if_neg (Nat.lt_irrefl _), magnitude?_toDigits, Option.bind_eq_bind, Option.bind_some,
    if_neg Bool.false_ne_true, if_pos bounds]
  rfl

theorem scalarOfWord?_toDigits (fits : number < Nat.pow 2 63) :
    scalarOfWord? (Nat.toDigits 10 number) = some (.ofId number) := by
  have noWord {name : List Char} (letter : Char) (member : letter ∈ name)
      (other : Text.isDigit letter = false) : Nat.toDigits 10 number ≠ name := by
    intro same
    exact not_mem_toDigits number other (same ▸ member)
  rw [scalarOfWord?, if_neg (noWord 't' (by decide) (by decide)),
    if_neg (noWord 'f' (by decide) (by decide)), integer?_toDigits fits]
  rfl

theorem isWordChar_of_isDigit {digit : Char} (isDigit : Text.isDigit digit = true) :
    isWordChar digit = true := by
  simp [isWordChar, Text.isLetterOrDigit, isDigit]

theorem spells_number (fits : number < Nat.pow 2 63) :
    Spells (toString number).toList (.ofId number) := by
  have digits : (toString number).toList = Nat.toDigits 10 number := by
    rw [Nat.toString_eq_ofList_toDigits, String.toList_ofList]
  obtain ⟨first, more, begins⟩ := List.exists_cons_of_ne_nil (Nat.toDigits_ne_nil (b := 10) (n := number))
  have digit : Text.isDigit first = true :=
    Text.isDigit_of_mem_toDigits (begins ▸ List.mem_cons_self : first ∈ Nat.toDigits 10 number)
  refine ⟨⟨first, more, by rw [digits, begins], ?_⟩, ?_⟩
  · by_contra blank
    rw [Bool.not_eq_false, isBlank, Bool.or_eq_true, beq_iff_eq, beq_iff_eq] at blank
    rcases blank with rfl | rfl <;> exact absurd digit (by decide)
  · intro fuel depth rest
    have word : (Nat.toDigits 10 number ++ '\n' :: rest).span isWordChar =
        (Nat.toDigits 10 number, '\n' :: rest) := by
      rw [List.span_eq_takeWhile_dropWhile,
        List.takeWhile_append_of_pos fun digit member =>
          isWordChar_of_isDigit (Text.isDigit_of_mem_toDigits member),
        List.dropWhile_append_of_pos fun digit member =>
          isWordChar_of_isDigit (Text.isDigit_of_mem_toDigits member)]
      simp [isWordChar, Text.isLetterOrDigit, Text.isLetter, Text.isDigit]
    have scalar : readScalar? (Nat.toDigits 10 number ++ '\n' :: rest) =
        some (.ofId number, '\n' :: rest) := by
      rw [readScalar?, word]
      simp [scalarOfWord?_toDigits fits]
    rw [digits, begins, List.cons_append] at *
    rw [readValue?]
    · exact scalar
    all_goals
      intros
      rename_i marked
      obtain rfl := (List.cons.inj marked).1
      exact absurd digit (by decide)

end Numbers

def IsBareKey (key : List Char) : Prop :=
  key ≠ [] ∧ key.all isBareKeyChar = true

section Lines

variable {key value rest : List Char} {meaning : Document}

theorem ne_of_isBareKeyChar {character mark : Char} (bare : isBareKeyChar character = true)
    (other : isBareKeyChar mark = false) : character ≠ mark := by
  rintro rfl
  rw [bare] at other
  cases other

theorem isBlank_of_isBareKeyChar {character : Char} (bare : isBareKeyChar character = true) :
    isBlank character = false := by
  simp [isBlank, ne_of_isBareKeyChar bare (by decide : isBareKeyChar ' ' = false),
    ne_of_isBareKeyChar bare (by decide : isBareKeyChar '\t' = false)]

theorem skipBlanks_of_other {first : Char} (other : isBlank first = false) (more : List Char) :
    skipBlanks (first :: more) = first :: more := by
  rw [skipBlanks, List.dropWhile_cons_of_neg (by simp [other])]

theorem readKey?_bare (bare : IsBareKey key) (rest : List Char) :
    readKey? (key ++ ' ' :: rest) = some (String.ofList key, ' ' :: rest) := by
  obtain ⟨nonempty, all⟩ := bare
  rw [List.all_eq_true] at all
  obtain ⟨first, more, rfl⟩ := List.exists_cons_of_ne_nil nonempty
  have firstBare := all first List.mem_cons_self
  have cut : (first :: more ++ ' ' :: rest).span isBareKeyChar = (first :: more, ' ' :: rest) := by
    rw [List.span_eq_takeWhile_dropWhile, List.takeWhile_append_of_pos all,
      List.dropWhile_append_of_pos all]
    simp [isBareKeyChar, Text.isLetterOrDigit, Text.isLetter, Text.isDigit]
  rw [List.cons_append] at cut ⊢
  rw [readKey?]
  · rw [cut]
  all_goals
    intros
    rename_i marked
    exact ne_of_isBareKeyChar firstBare (by decide) (List.cons.inj marked).1

theorem readAssignment?_bare (bare : IsBareKey key) {first : Char} (other : isBlank first = false)
    (rest : List Char) :
    readAssignment? (key ++ ' ' :: '=' :: ' ' :: first :: rest) =
      some ([String.ofList key], first :: rest) := by
  obtain ⟨start, more, rfl⟩ := List.exists_cons_of_ne_nil bare.1
  have startBare := List.all_eq_true.mp bare.2 start List.mem_cons_self
  have trimmed : skipBlanks (start :: more ++ ' ' :: '=' :: ' ' :: first :: rest) =
      start :: more ++ ' ' :: '=' :: ' ' :: first :: rest :=
    skipBlanks_of_other (isBlank_of_isBareKeyChar startBare) _
  have keys : readKeys? depthLimit (start :: more ++ ' ' :: '=' :: ' ' :: first :: rest) =
      some ([String.ofList (start :: more)], '=' :: ' ' :: first :: rest) := by
    rw [depthLimit, readKeys?, trimmed, readKey?_bare bare]
    rfl
  have behind : skipBlanks (' ' :: first :: rest) = first :: rest := by
    rw [skipBlanks, List.dropWhile_cons_of_pos (by rfl)]
    exact skipBlanks_of_other other rest
  rw [readAssignment?, keys]
  change some ([String.ofList (start :: more)], skipBlanks (' ' :: first :: rest)) = _
  rw [behind]

def lineChars (key value : List Char) : List Char := key ++ ' ' :: '=' :: ' ' :: value ++ ['\n']

theorem readStatement?_line (bare : IsBareKey key) (spells : Spells value meaning) (rest : List Char) :
    readStatement? (lineChars key value ++ rest) =
      some (.pair [String.ofList key] meaning, rest) := by
  obtain ⟨first, more, rfl, other⟩ := spells.starts
  have spelled : lineChars key (first :: more) ++ rest =
      key ++ ' ' :: '=' :: ' ' :: first :: (more ++ '\n' :: rest) := by simp [lineChars]
  have long : 2 * (key ++ ' ' :: '=' :: ' ' :: first :: (more ++ '\n' :: rest)).length =
      2 * (key ++ ' ' :: '=' :: ' ' :: first :: (more ++ '\n' :: rest)).length - 1 + 1 := by
    rw [List.length_append, List.length_cons]
    omega
  have assigned := readAssignment?_bare bare other (more ++ '\n' :: rest)
  have read := spells.reads
    (2 * (key ++ ' ' :: '=' :: ' ' :: first :: (more ++ '\n' :: rest)).length - 1) depthLimit rest
  rw [← long, List.cons_append] at read
  rw [spelled]
  obtain ⟨start, others, rfl⟩ := List.exists_cons_of_ne_nil bare.1
  have startBare := List.all_eq_true.mp bare.2 start List.mem_cons_self
  rw [List.cons_append] at assigned read ⊢
  unfold readStatement?
  split
  · rename_i marked
    exact absurd (List.cons.inj marked).1 (ne_of_isBareKeyChar startBare (by decide))
  · rename_i marked
    exact absurd (List.cons.inj marked).1 (ne_of_isBareKeyChar startBare (by decide))
  · rw [assigned, Option.bind_eq_bind, Option.bind_some]
    dsimp only
    rw [read]
    simp [readLineEnd?, skipBlanks, isBlank, afterNewline?]

end Lines

structure Line where
  key : String
  value : String
  meaning : Document
  bare : IsBareKey key.toList
  spells : Spells value.toList meaning

namespace Line

def chars (line : Line) : List Char := lineChars line.key.toList line.value.toList

def entry (line : Line) : String × Document := (line.key, line.meaning)

def statement (line : Line) : Statement := .pair [line.key] line.meaning

theorem readStatement?_chars (line : Line) (rest : List Char) :
    readStatement? (line.chars ++ rest) = some (line.statement, rest) := by
  have read := readStatement?_line line.bare line.spells rest
  rwa [String.ofList_toList] at read

theorem skipGap_chars (line : Line) (rest : List Char) :
    skipGap false (line.chars ++ rest) = line.chars ++ rest := by
  obtain ⟨start, more, begins⟩ := List.exists_cons_of_ne_nil line.bare.1
  have startBare := List.all_eq_true.mp line.bare.2 start (begins ▸ List.mem_cons_self)
  rw [chars, lineChars, begins, List.cons_append, List.cons_append, List.cons_append, skipGap]
  simp [isBlank_of_isBareKeyChar startBare,
    ne_of_isBareKeyChar startBare (by decide : isBareKeyChar '\n' = false),
    ne_of_isBareKeyChar startBare (by decide : isBareKeyChar '\r' = false),
    ne_of_isBareKeyChar startBare (by decide : isBareKeyChar '#' = false)]

theorem chars_ne_nil (line : Line) : line.chars ≠ [] := by
  simp [chars, lineChars]

theorem readStatements?_chars (lines : List Line) {bound : Nat} (enough : lines.length ≤ bound) :
    readStatements? bound (lines.flatMap chars) = some (lines.map statement) := by
  induction lines generalizing bound with
  | nil =>
      rw [List.flatMap_nil, readStatements?.eq_def]
      rfl
  | cons line lines ih =>
      obtain ⟨bound, rfl⟩ : ∃ less, bound = less + 1 :=
        Nat.exists_eq_add_one.mpr (Nat.lt_of_lt_of_le (Nat.succ_pos _) enough)
      rw [List.flatMap_cons, readStatements?.eq_def]
      dsimp only
      rw [skipGap_chars]
      obtain ⟨start, more, begins⟩ := List.exists_cons_of_ne_nil line.chars_ne_nil
      have read := line.readStatement?_chars (lines.flatMap chars)
      rw [begins, List.cons_append] at read ⊢
      dsimp only
      rw [read, Option.bind_eq_bind, Option.bind_some]
      dsimp only
      rw [ih (Nat.le_of_succ_le_succ enough)]
      rfl

theorem update_of_not_mem {key : String} {change : Option Item → Option Item} {entries : Entries}
    (absent : key ∉ entries.map Prod.fst) :
    entries.update key change = (change none).map fun item => entries ++ [(key, item)] := by
  induction entries with
  | nil => rfl
  | cons entry entries ih =>
      rw [List.map_cons, List.mem_cons, not_or] at absent
      rw [Entries.update, if_neg (Ne.symm absent.1), ih absent.2, Option.map_map]
      rfl

theorem foldlM_add (entries : Entries) (lines : List Line)
    (distinct : (entries.map Prod.fst ++ lines.map key).Nodup) :
    (lines.map statement).foldlM Building.add { entries } =
      some { entries := entries ++ lines.map fun line => (line.key, .leaf line.meaning) } := by
  induction lines generalizing entries with
  | nil => simp
  | cons line lines ih =>
      rw [List.map_cons, List.append_cons] at distinct
      have absent : line.key ∉ entries.map Prod.fst := by
        rw [List.nodup_append, List.nodup_append] at distinct
        exact fun member => distinct.1.2.2 _ member _ (by simp) rfl
      have added : Building.add { entries } line.statement =
          some { entries := entries ++ [(line.key, .leaf line.meaning)] } := by
        rw [statement, Building.add, Entries.within, Entries.insertPair, update_of_not_mem absent]
        rfl
      rw [List.map_cons, List.foldlM_cons, added]
      change List.foldlM Building.add _ _ = _
      rw [ih _ (by simpa using distinct), List.map_cons, List.append_assoc, List.singleton_append]

theorem fieldsOfEntries_leaves (lines : List Line) :
    fieldsOfEntries (lines.map fun line => (line.key, .leaf line.meaning)) =
      lines.map fun line => (some line.key, line.meaning) := by
  induction lines with
  | nil => rfl
  | cons line lines ih =>
      rw [List.map_cons, List.map_cons, fieldsOfEntries, ih]
      rfl

theorem length_le (lines : List Line) : lines.length ≤ (lines.flatMap chars).length := by
  induction lines with
  | nil => exact Nat.le_refl 0
  | cons line lines ih =>
      have positive := List.length_pos_of_ne_nil line.chars_ne_nil
      rw [List.flatMap_cons, List.length_append, List.length_cons]
      omega

theorem read?_lines {lines : List Line} {text : String} (spelled : text.toList = lines.flatMap chars)
    (distinct : (lines.map key).Nodup) : read? text = some (.fields (lines.map entry)) := by
  have noMark : dropByteOrderMark (lines.flatMap chars) = lines.flatMap chars := by
    cases lines with
    | nil => rfl
    | cons line lines =>
        obtain ⟨start, more, begins⟩ := List.exists_cons_of_ne_nil line.bare.1
        have startBare := List.all_eq_true.mp line.bare.2 start (begins ▸ List.mem_cons_self)
        rw [List.flatMap_cons, chars, lineChars, begins, List.cons_append, List.cons_append,
          List.cons_append, dropByteOrderMark]
        intro rest marked
        obtain rfl := (List.cons.inj marked).1
        exact absurd startBare (by decide)
  have built : (lines.map statement).foldlM Building.add {} =
      some { entries := lines.map fun line => (line.key, .leaf line.meaning) } :=
    foldlM_add [] lines distinct
  rw [read?, spelled, noMark, readStatements?_chars lines (length_le lines), Option.bind_eq_bind,
    Option.bind_some, Option.bind_eq_bind, built, Option.bind_some, Entries.toDocument,
    fieldsOfEntries_leaves, Document.fields, List.map_map]
  rfl

end Line

end ContingentPlan.Toml
