import ContingentPlan.Toml.Writer

/-!
Written TOML strings are read back. Between quotes every character is read from its escape, and between
tripled marks the text has no three marks in a row that are not escaped, so that it ends where it should.
-/

namespace ContingentPlan.Toml

section Escapes

variable {character : Char} {more text rest : List Char}

theorem scalar?_fourDigits : ∀ value < 0x80, scalar? (fourDigits value) = some (Char.ofNat value) := by
  decide

theorem scalar?_of_not_isPlain (special : isPlain character = false) :
    scalar? (fourDigits character.toNat) = some character := by
  have small : character.toNat < 0x80 := by
    simp only [isPlain, Bool.or_eq_false_iff, Bool.and_eq_false_iff, decide_eq_false_iff_not] at special
    omega
  rw [scalar?_fourDigits _ small, Char.ofNat_toNat]

theorem readBasic?_cons (plain : isPlain character = true) (noQuote : character ≠ '"')
    (noBackslash : character ≠ '\\') (found : readBasic? more = some (text, rest)) :
    readBasic? (character :: more) = some (character :: text, rest) := by
  rw [readBasic?]
  · simp [plain, found]
  all_goals simp_all

theorem readBasic?_escape (noQuote : character ≠ '"') (found : readBasic? more = some (text, rest)) :
    readBasic? (escape false character ++ more) = some (character :: text, rest) := by
  unfold escape
  split
  case h_7 noBackslash _ _ _ _ _ =>
    split
    · exact readBasic?_cons ‹_› noQuote noBackslash found
    · rename_i special
      have digits := scalar?_of_not_isPlain (Bool.not_eq_true _ ▸ special)
      change readBasic? ('\\' :: 'u' :: _ :: _ :: _ :: _ :: more) = _
      rw [readBasic?]
      change (scalar? (fourDigits character.toNat) >>= _) = _
      rw [digits]
      simp [found]
  all_goals
    change readBasic? ('\\' :: _ :: more) = _
    rw [readBasic?]
    · simp [unescape?, found]
    all_goals simp

theorem writeBasic_cons (noQuote : character ≠ '"') (text : List Char) :
    writeBasic (character :: text) = escape false character ++ writeBasic text := by
  rw [writeBasic]
  exact noQuote

theorem writeLongBasic_cons (noQuote : character ≠ '"') (run : Nat) (text : List Char) :
    writeLongBasic run (character :: text) = escape true character ++ writeLongBasic 0 text := by
  rw [writeLongBasic]
  exact noQuote

theorem readBasic?_writeBasic (text rest : List Char) :
    readBasic? (writeBasic text ++ '"' :: rest) = some (text, rest) := by
  induction text with
  | nil => simp [writeBasic, readBasic?]
  | cons character text ih =>
      by_cases quote : character = '"'
      · subst quote
        change readBasic? ('\\' :: '"' :: (writeBasic text ++ '"' :: rest)) = _
        rw [readBasic?]
        · simp [unescape?, ih]
        all_goals simp
      · rw [writeBasic_cons quote, List.append_assoc]
        exact readBasic?_escape quote ih

theorem readLongBasic?_cons (inner : (isPlain character || character == '\n') = true)
    (noQuote : character ≠ '"') (noBackslash : character ≠ '\\')
    (found : readLongBasic? false more = some (text, rest)) :
    readLongBasic? false (character :: more) = some (character :: text, rest) := by
  have noReturn : character ≠ '\r' := by
    rintro rfl
    revert inner
    decide
  rw [readLongBasic?]
  · simp only [Bool.false_and, Bool.false_eq_true, if_false, inner, if_true, found]
    rfl
  all_goals simp_all

theorem readLongBasic?_escape (noQuote : character ≠ '"')
    (found : readLongBasic? false more = some (text, rest)) :
    readLongBasic? false (escape true character ++ more) = some (character :: text, rest) := by
  unfold escape
  split
  case h_4 => exact readLongBasic?_cons (by decide) (by decide) (by decide) found
  case h_7 noBackslash _ _ _ _ _ =>
    split
    · rename_i plain
      exact readLongBasic?_cons (by simp [plain]) noQuote noBackslash found
    · rename_i special
      have digits := scalar?_of_not_isPlain (Bool.not_eq_true _ ▸ special)
      change readLongBasic? false ('\\' :: 'u' :: _ :: _ :: _ :: _ :: more) = _
      rw [readLongBasic?]
      change (scalar? (fourDigits character.toNat) >>= _) = _
      rw [digits]
      simp [found]
  all_goals
    change readLongBasic? false ('\\' :: _ :: more) = _
    rw [readLongBasic?]
    · simp [unescape?, found]
    all_goals simp

/-- A mark with fewer than two others behind it belongs to the text. -/
theorem readLongBasic?_quote (apart : ∀ tail, more ≠ '"' :: '"' :: tail)
    (found : readLongBasic? false more = some (text, rest)) :
    readLongBasic? false ('"' :: more) = some ('"' :: text, rest) := by
  rw [readLongBasic?]
  · simp [isPlain, isBlank, found]
  all_goals simp_all

theorem exists_escape (long : Bool) (noQuote : character ≠ '"') :
    ∃ first tail, escape long character = first :: tail ∧ first ≠ '"' := by
  unfold escape
  split
  case h_4 =>
    cases long
    · exact ⟨'\\', ['n'], rfl, by decide⟩
    · exact ⟨'\n', [], rfl, by decide⟩
  case h_7 =>
    split
    · exact ⟨character, [], rfl, noQuote⟩
    · exact ⟨'\\', _, rfl, by decide⟩
  all_goals exact ⟨'\\', _, rfl, by decide⟩

end Escapes

section LongBasic

variable {text rest : List Char}

/-- Behind two marks in a row, or before another character, no mark follows. -/
theorem exists_writeLongBasic {run : Nat} (nonempty : text ≠ [])
    (ended : run = 2 ∨ text.head? ≠ some '"') :
    ∃ first tail, writeLongBasic run text = first :: tail ∧ first ≠ '"' := by
  cases text with
  | nil => exact absurd rfl nonempty
  | cons character text =>
      by_cases quote : character = '"'
      · subst quote
        rcases ended with rfl | other
        · exact ⟨'\\', '"' :: writeLongBasic 0 text, rfl, by decide⟩
        · exact absurd rfl other
      · obtain ⟨first, tail, escaped, apart⟩ := exists_escape true quote
        exact ⟨first, tail ++ writeLongBasic 0 text,
          by rw [writeLongBasic_cons quote, escaped, List.cons_append], apart⟩

theorem readLongBasic?_marks (behind : rest.head? ≠ some '"') {count : Nat} (few : count ≤ 2) :
    readLongBasic? false (List.replicate count '"' ++ '"' :: '"' :: '"' :: rest) =
      some (List.replicate count '"', rest) := by
  have other : ∀ tail, rest ≠ '"' :: tail := by
    rintro tail rfl
    exact behind rfl
  obtain rfl | rfl | rfl : count = 0 ∨ count = 1 ∨ count = 2 := by omega
  · change readLongBasic? false ('"' :: '"' :: '"' :: rest) = some ([], rest)
    rw [readLongBasic?]
    · exact fun tail same => other _ same
    · exact other
  · change readLongBasic? false ('"' :: '"' :: '"' :: '"' :: rest) = some (['"'], rest)
    rw [readLongBasic?]
    exact other
  · change readLongBasic? false ('"' :: '"' :: '"' :: '"' :: '"' :: rest) = some (['"', '"'], rest)
    rw [readLongBasic?]

theorem readLongBasic?_writeLongBasic (behind : rest.head? ≠ some '"') {run : Nat} (short : run ≤ 2) :
    readLongBasic? false (writeLongBasic run text ++ '"' :: '"' :: '"' :: rest) =
      some (text, rest) := by
  induction text generalizing run with
  | nil => exact readLongBasic?_marks behind (Nat.zero_le 2)
  | cons character text ih =>
      by_cases quote : character = '"'
      · subst quote
        rw [writeLongBasic]
        by_cases room : run < 2
        · rw [if_pos room, List.cons_append]
          rcases text with _ | ⟨second, text⟩
          · exact readLongBasic?_marks behind (by omega : 1 ≤ 2)
          · by_cases ended : run + 1 = 2 ∨ second ≠ '"'
            · have unmarked : run + 1 = 2 ∨ (second :: text).head? ≠ some '"' := by simpa using ended
              obtain ⟨first, tail, written, apart⟩ :=
                exists_writeLongBasic (List.cons_ne_nil second text) unmarked
              apply readLongBasic?_quote _ (ih room)
              simp [written, apart]
            · obtain ⟨rfl, rfl⟩ : run = 0 ∧ second = '"' := by
                rw [not_or, Decidable.not_not] at ended
                exact ⟨by omega, ended.2⟩
              rcases text with _ | ⟨third, text⟩
              · exact readLongBasic?_marks behind (Nat.le_refl 2)
              · obtain ⟨first, tail, written, apart⟩ :=
                  exists_writeLongBasic (List.cons_ne_nil third text) (Or.inl rfl)
                apply readLongBasic?_quote _ (ih room)
                simp [writeLongBasic, written, apart]
        · rw [if_neg room, List.cons_append, List.cons_append, readLongBasic?]
          · simp [unescape?, ih (Nat.zero_le 2)]
          all_goals simp
      · rw [writeLongBasic_cons quote, List.append_assoc]
        exact readLongBasic?_escape quote (ih (Nat.zero_le 2))

end LongBasic

section Literals

variable {text rest : List Char}

theorem readLiteral?_append (plain : ∀ character ∈ text, isPlain character = true)
    (noMark : '\'' ∉ text) (rest : List Char) :
    readLiteral? (text ++ '\'' :: rest) = some (text, rest) := by
  induction text with
  | nil => simp [readLiteral?]
  | cons character text ih =>
      rw [List.forall_mem_cons] at plain
      rw [List.mem_cons, not_or] at noMark
      rw [List.cons_append, readLiteral?]
      · simp [plain.1, ih plain.2 noMark.2]
      · exact fun same => noMark.1 same.symm

theorem readLongLiteral?_cons {character : Char} {more : List Char}
    (inner : (isPlain character || character == '\n') = true)
    (apart : character = '\'' → ∀ tail, more ≠ '\'' :: '\'' :: tail)
    (found : readLongLiteral? more = some (text, rest)) :
    readLongLiteral? (character :: more) = some (character :: text, rest) := by
  have noReturn : character ≠ '\r' := by
    rintro rfl
    revert inner
    decide
  rw [readLongLiteral?]
  · simp only [inner, if_true, found]
    rfl
  all_goals simp_all

theorem readLongLiteral?_marks (behind : rest.head? ≠ some '\'') {count : Nat} (few : count ≤ 2) :
    readLongLiteral? (List.replicate count '\'' ++ '\'' :: '\'' :: '\'' :: rest) =
      some (List.replicate count '\'', rest) := by
  have other : ∀ tail, rest ≠ '\'' :: tail := by
    rintro tail rfl
    exact behind rfl
  obtain rfl | rfl | rfl : count = 0 ∨ count = 1 ∨ count = 2 := by omega
  · change readLongLiteral? ('\'' :: '\'' :: '\'' :: rest) = some ([], rest)
    rw [readLongLiteral?]
    · exact fun tail same => other _ same
    · exact other
  · change readLongLiteral? ('\'' :: '\'' :: '\'' :: '\'' :: rest) = some (['\''], rest)
    rw [readLongLiteral?]
    exact other
  · change readLongLiteral? ('\'' :: '\'' :: '\'' :: '\'' :: '\'' :: rest) = some (['\'', '\''], rest)
    rw [readLongLiteral?]

def Sparse (mark : Char) (text : List Char) : Prop :=
  ∀ before after, text ≠ before ++ mark :: mark :: mark :: after

theorem Sparse.tail {mark character : Char} (sparse : Sparse mark (character :: text)) :
    Sparse mark text := by
  rintro before after rfl
  exact sparse (character :: before) after rfl

def countRun (mark : Char) (runs : Nat × Nat) (next : Char) : Nat × Nat :=
  if next = mark then (runs.1, runs.2 + 1) else (max runs.1 runs.2, 0)

theorem longestRun_eq (mark : Char) (text : List Char) :
    longestRun mark text =
      max (text.foldl (countRun mark) (0, 0)).1 (text.foldl (countRun mark) (0, 0)).2 :=
  rfl

theorem le_foldl_countRun (mark : Char) (text : List Char) (runs : Nat × Nat) :
    max runs.1 runs.2 ≤
      max (text.foldl (countRun mark) runs).1 (text.foldl (countRun mark) runs).2 := by
  induction text generalizing runs with
  | nil => exact Nat.le_refl _
  | cons character text ih =>
      rw [List.foldl_cons]
      refine Nat.le_trans ?_ (ih _)
      unfold countRun
      split <;> dsimp only <;> omega

theorem sparse_of_longestRun {mark : Char} (short : longestRun mark text ≤ 2) : Sparse mark text := by
  rintro before after rfl
  rw [longestRun_eq, List.foldl_append, List.foldl_cons, List.foldl_cons, List.foldl_cons] at short
  have long := le_foldl_countRun mark after (countRun mark (countRun mark (countRun mark
    (before.foldl (countRun mark) (0, 0)) mark) mark) mark)
  simp only [countRun, if_true] at short long
  omega

theorem readLongLiteral?_append (behind : rest.head? ≠ some '\'')
    (inner : ∀ character ∈ text, (isPlain character || character == '\n') = true)
    (sparse : Sparse '\'' text) :
    readLongLiteral? (text ++ '\'' :: '\'' :: '\'' :: rest) = some (text, rest) := by
  induction text with
  | nil => exact readLongLiteral?_marks behind (Nat.zero_le 2)
  | cons character text ih =>
      rw [List.forall_mem_cons] at inner
      have read := ih inner.2 sparse.tail
      by_cases ending : ∃ count, count ≤ 2 ∧ character :: text = List.replicate count '\''
      · obtain ⟨count, few, marks⟩ := ending
        rw [marks]
        exact readLongLiteral?_marks behind few
      · apply readLongLiteral?_cons inner.1 _ read
        rintro rfl tail more
        rcases text with _ | ⟨second, _ | ⟨third, text⟩⟩
        · exact ending ⟨1, by omega, rfl⟩
        · obtain rfl : second = '\'' := by simpa using congrArg List.head? more
          exact ending ⟨2, by omega, rfl⟩
        · simp only [List.cons_append, List.cons.injEq] at more
          obtain ⟨rfl, rfl, -⟩ := more
          exact sparse [] text rfl

end Literals

section Quoting

variable {text rest : List Char}

theorem dropNewline_of_other {first : Char} (noNewline : first ≠ '\n') (noReturn : first ≠ '\r')
    (more : List Char) : dropNewline (first :: more) = first :: more := by
  rw [dropNewline, afterNewline?]
  · rfl
  · exact fun _ same => noNewline (List.cons.inj same).1
  · exact fun _ same => noReturn (List.cons.inj same).1

/-- The line end behind the opening is dropped, and another one that is needed is not. -/
theorem dropNewline_tripled (rest : List Char) {mark : Char} {content : List Char} (noNewline : mark ≠ '\n')
    (noReturn : mark ≠ '\r')
    (begins : '\n' ∉ text → ∀ first ∈ content.head?, first ≠ '\n' ∧ first ≠ '\r') :
    dropNewline ((if '\n' ∈ text then ['\n'] else []) ++ content ++ [mark, mark, mark] ++ rest) =
      content ++ mark :: mark :: mark :: rest := by
  by_cases lineEnds : '\n' ∈ text
  · rw [if_pos lineEnds]
    simp [dropNewline, afterNewline?]
  · rw [if_neg lineEnds]
    cases content with
    | nil => exact dropNewline_of_other noNewline noReturn _
    | cons first content =>
        obtain ⟨newline, returned⟩ := begins lineEnds first (by simp)
        simpa using dropNewline_of_other newline returned (content ++ mark :: mark :: mark :: rest)

theorem head?_writeLongBasic (noNewline : '\n' ∉ text) :
    ∀ first ∈ (writeLongBasic 0 text).head?, first ≠ '\n' ∧ first ≠ '\r' := by
  cases text with
  | nil => simp [writeLongBasic]
  | cons character text =>
      by_cases quote : character = '"'
      · subst quote
        simp [writeLongBasic]
      · have inner : character ≠ '\n' := by
          rintro rfl
          simp at noNewline
        rw [writeLongBasic_cons quote]
        unfold escape
        split
        case h_4 => exact absurd rfl inner
        case h_7 noReturn =>
          split
          · simpa [inner] using noReturn
          · simp
        all_goals simp

theorem readText?_basic (text : List Char) (behind : rest.head? ≠ some '"') :
    readText? ('"' :: (writeBasic text ++ '"' :: rest)) = some (text, rest) := by
  rw [readText?]
  · exact readBasic?_writeBasic text rest
  · intro more same
    cases text with
    | nil =>
        obtain rfl : rest = '"' :: more := (List.cons.inj same).2
        exact behind rfl
    | cons character text =>
        by_cases quote : character = '"'
        · subst quote
          cases same
        · obtain ⟨first, tail, escaped, apart⟩ := exists_escape false quote
          rw [writeBasic_cons quote, escaped] at same
          exact apart (List.cons.inj same).1

theorem readText?_literal (plain : ∀ character ∈ text, isPlain character = true)
    (noMark : '\'' ∉ text) (behind : rest.head? ≠ some '\'') :
    readText? ('\'' :: (text ++ '\'' :: rest)) = some (text, rest) := by
  rw [readText?]
  · exact readLiteral?_append plain noMark rest
  · rintro more same
    cases text with
    | nil =>
        obtain rfl : rest = '\'' :: more := (List.cons.inj same).2
        exact behind rfl
    | cons character text =>
        obtain rfl : character = '\'' := (List.cons.inj same).1
        exact noMark List.mem_cons_self

theorem readText?_longBasic (behind : rest.head? ≠ some '"') :
    readText? (tripled '"' text (writeLongBasic 0 text) ++ rest) = some (text, rest) := by
  have dropped := dropNewline_tripled rest (by decide : '"' ≠ '\n') (by decide)
    fun noNewline : '\n' ∉ text => head?_writeLongBasic noNewline
  change readLongBasic? false (dropNewline ((if '\n' ∈ text then ['\n'] else []) ++
    writeLongBasic 0 text ++ ['"', '"', '"'] ++ rest)) = _
  rw [dropped]
  exact readLongBasic?_writeLongBasic behind (Nat.zero_le 2)

theorem readText?_longLiteral (behind : rest.head? ≠ some '\'')
    (inner : ∀ character ∈ text, (isPlain character || character == '\n') = true)
    (sparse : Sparse '\'' text) :
    readText? (tripled '\'' text text ++ rest) = some (text, rest) := by
  have begins : '\n' ∉ text → ∀ first ∈ text.head?, first ≠ '\n' ∧ first ≠ '\r' := by
    intro noNewline first head
    refine ⟨fun newline => noNewline (newline ▸ List.mem_of_head? head), ?_⟩
    rintro rfl
    exact absurd (inner _ (List.mem_of_head? head)) (by decide)
  have dropped := dropNewline_tripled rest (by decide : '\'' ≠ '\n') (by decide) begins
  change readLongLiteral? (dropNewline ((if '\n' ∈ text then ['\n'] else []) ++
    text ++ ['\'', '\'', '\''] ++ rest)) = _
  rw [dropped]
  exact readLongLiteral?_append behind inner sparse

theorem readText?_quoteChars (noQuote : rest.head? ≠ some '"') (noApostrophe : rest.head? ≠ some '\'') :
    readText? (quoteChars text ++ rest) = some (text, rest) := by
  have basic : readText? ('"' :: writeBasic text ++ ['"'] ++ rest) = some (text, rest) := by
    simpa using readText?_basic text noQuote
  unfold quoteChars
  dsimp only
  split
  · exact basic
  split
  · rename_i literal
    obtain ⟨inner, lineEnds, noMark⟩ := literal
    rw [List.all_eq_true] at inner
    have plain : ∀ character ∈ text, isPlain character = true := by
      intro character member
      have own := inner character member
      rw [Bool.or_eq_true, beq_iff_eq] at own
      exact own.resolve_right fun newline => lineEnds (newline ▸ member)
    simpa using readText?_literal plain noMark noApostrophe
  split
  · exact readText?_longBasic noQuote
  split
  · rename_i literal
    exact readText?_longLiteral noApostrophe (List.all_eq_true.mp literal.1)
      (sparse_of_longestRun literal.2)
  split
  · exact readText?_longBasic noQuote
  · exact basic

end Quoting

end ContingentPlan.Toml
