import ContingentPlan.Json.Token
import ContingentPlan.Proofs.Json.Grammar
import Mathlib.Data.List.Forall2

/-!
What a JSON text is cut into. A quoted text is read as that text, whatever it holds, and a text that
is put together from marks, blanks, words and quoted texts is cut where these meet.
-/

namespace ContingentPlan.Json

/-- The pieces of a string spell the text. Only control characters are given by number. -/
def Spells : List Piece → List Char → Prop :=
  List.Forall₂ fun piece character =>
    piece = .char character ∨ piece = .unit character.toNat ∧ character.toNat < 0x20

theorem hexValue?_hexDigit : ∀ value < 0x20,
    Text.hexValue? ['0', '0', Text.hexDigit (value / 16), Text.hexDigit (value % 16)] = some value := by
  decide

theorem readPieces?_short {letter character : Char} (short : (letter, character) ∈ shortEscapes)
    (rest : List Char) : readPieces? ('\\' :: letter :: rest) =
      (readPieces? rest).map fun found => (.char character :: found.1, found.2) := by
  have table : ∀ escape ∈ shortEscapes,
      escape.1 ≠ 'u' ∧ unescape? escape.1 = some escape.2 := by decide
  obtain ⟨notNumber, unescaped⟩ := table _ short
  rw [readPieces?]
  · rw [unescaped]
    cases readPieces? rest <;> rfl
  · simp [notNumber]

theorem readPieces?_plain {character : Char} (printable : 0x20 ≤ character.toNat)
    (notQuote : character ≠ '"') (notBackslash : character ≠ '\\') (rest : List Char) :
    readPieces? (character :: rest) =
      (readPieces? rest).map fun found => (.char character :: found.1, found.2) := by
  rw [readPieces?, if_neg (by omega)]
  · cases readPieces? rest <;> rfl
  · exact notQuote
  · intro a b c d tail escaped
    exact absurd escaped notBackslash
  · intro letter tail escaped
    exact absurd escaped notBackslash

theorem exists_piece {spelling : List Char} {character : Char} (stands : StandsFor spelling character) :
    ∃ piece, (piece = .char character ∨ piece = .unit character.toNat ∧ character.toNat < 0x20) ∧
      ∀ rest, readPieces? (spelling ++ rest) =
        (readPieces? rest).map fun found => (piece :: found.1, found.2) := by
  cases stands with
  | plain printable notQuote notBackslash =>
      exact ⟨_, Or.inl rfl, readPieces?_plain printable notQuote notBackslash⟩
  | short short => exact ⟨_, Or.inl rfl, readPieces?_short short⟩
  | number control =>
      refine ⟨.unit character.toNat, Or.inr ⟨rfl, control⟩, fun rest => ?_⟩
      change readPieces? ('\\' :: 'u' :: '0' :: '0' :: _ :: _ :: rest) = _
      rw [readPieces?, hexValue?_hexDigit _ control]
      cases readPieces? rest <;> rfl

theorem exists_readPieces? {quoted text : List Char} (quotes : Quotes quoted text) (rest : List Char) :
    ∃ pieces, readPieces? (quoted ++ rest) = some (pieces, rest) ∧ Spells pieces text := by
  induction quotes with
  | nil => exact ⟨[], by simp [readPieces?], .nil⟩
  | cons stands quotes ih =>
      obtain ⟨piece, own, reads⟩ := exists_piece stands
      obtain ⟨pieces, found, spells⟩ := ih
      refine ⟨piece :: pieces, ?_, .cons own spells⟩
      rw [List.append_assoc, reads, found]
      rfl

theorem joinPieces?_of_spells {pieces : List Piece} {text : List Char} (spells : Spells pieces text) :
    joinPieces? pieces = some text := by
  induction spells with
  | nil => rfl
  | @cons piece character pieces text own spells ih =>
      rcases own with rfl | ⟨rfl, control⟩
      · rw [joinPieces?, ih]
        rfl
      · have notHigh : isHighSurrogate character.toNat = false := by
          simp [isHighSurrogate]
          omega
        have notLow : isLowSurrogate character.toNat = false := by
          simp [isLowSurrogate]
          omega
        cases spells with
        | nil => simp [joinPieces?, notHigh, notLow]
        | cons next _ =>
            rcases next with rfl | ⟨rfl, -⟩
            all_goals simp [joinPieces?, notHigh, notLow] at ih ⊢
            all_goals simp [ih]

theorem plain_of_isWordChar {character : Char} (inner : isWordChar character = true) :
    isBlank character = false ∧ punctuation? character = none ∧ character ≠ '"' := by
  refine ⟨?_, ?_, ?_⟩
  · by_contra blank
    rw [Bool.not_eq_false] at blank
    simp only [isBlank, Bool.or_eq_true, beq_iff_eq] at blank
    rcases blank with ((rfl | rfl) | rfl) | rfl
    all_goals revert inner; decide
  · unfold punctuation?
    split
    all_goals first
      | rfl
      | revert inner; decide
  · rintro rfl
    revert inner
    decide

theorem isBlank_of_punctuation? {character : Char} {token : Token}
    (marks : punctuation? character = some token) : isBlank character = false := by
  unfold punctuation? at marks
  split at marks
  all_goals first
    | rfl
    | cases marks

def EndsWord (text : List Char) : Prop := ∀ character ∈ text.head?, isWordChar character = false

theorem EndsWord.append {text rest : List Char} (ends : EndsWord text) (behind : EndsWord rest) :
    EndsWord (text ++ rest) := by
  cases text with
  | nil => exact behind
  | cons character text => exact ends

theorem endsWord_blanks {blanks : List Char}
    (blank : ∀ character ∈ blanks, isBlank character = true) : EndsWord blanks := by
  intro character head
  by_contra inner
  have plain := (plain_of_isWordChar (Bool.not_eq_false _ ▸ inner)).1
  rw [blank character (List.mem_of_head? head)] at plain
  cases plain

theorem endsWord_mark {character : Char} {token : Token} (marks : punctuation? character = some token)
    (text : List Char) : EndsWord (character :: text) := by
  rintro _ ⟨rfl⟩
  by_contra inner
  rw [(plain_of_isWordChar (Bool.not_eq_false _ ▸ inner)).2.1] at marks
  cases marks

/-- The text is cut into the tokens, whatever stands behind it. -/
def Lexes (text : List Char) (tokens : List Token) : Prop :=
  ∀ rest, EndsWord rest → tokens? (text ++ rest) = (tokens? rest).map (tokens ++ ·)

namespace Lexes

variable {text behind : List Char} {tokens more : List Token}

theorem nil : Lexes [] [] := fun rest _ => by simp

theorem append (lexes : Lexes text tokens) (lexesToo : Lexes behind more) (ends : EndsWord behind) :
    Lexes (text ++ behind) (tokens ++ more) := by
  intro rest restEnds
  rw [List.append_assoc, lexes _ (ends.append restEnds), lexesToo rest restEnds, Option.map_map]
  congr 1
  funext found
  simp

theorem blanks {blanks : List Char} (blank : ∀ character ∈ blanks, isBlank character = true)
    (lexes : Lexes text tokens) : Lexes (blanks ++ text) tokens := by
  induction blanks with
  | nil => exact lexes
  | cons character blanks ih =>
      rw [List.forall_mem_cons] at blank
      intro rest ends
      rw [List.cons_append, List.cons_append, tokens?, if_pos blank.1]
      exact ih blank.2 rest ends

theorem mark {character : Char} {token : Token} (marks : punctuation? character = some token)
    (lexes : Lexes text tokens) : Lexes (character :: text) (token :: tokens) := by
  intro rest ends
  rw [List.cons_append, tokens?, if_neg (by simp [isBlank_of_punctuation? marks]), marks]
  dsimp only
  rw [lexes rest ends, Option.map_map]
  rfl

theorem quoted {content : String} {letters : List Char} (quotes : Quotes letters content.toList)
    (lexes : Lexes text tokens) :
    Lexes ('"' :: letters ++ text) (.string (some content) :: tokens) := by
  intro rest ends
  obtain ⟨pieces, found, spells⟩ := exists_readPieces? quotes (text ++ rest)
  rw [List.cons_append, List.cons_append, List.append_assoc, tokens?, if_neg (by decide),
    show punctuation? '"' = none from rfl]
  dsimp only
  rw [if_pos rfl]
  split
  · rename_i missing
    rw [found] at missing
    cases missing
  · rename_i readPieces readRest read
    rw [found] at read
    cases read
    rw [lexes rest ends, joinPieces?_of_spells spells, Option.map_map]
    simp [Function.comp_def]

theorem word {letters : List Char} (nonempty : letters ≠ [])
    (inner : ∀ letter ∈ letters, isWordChar letter = true) : Lexes letters [.word letters] := by
  intro rest ends
  cases letters with
  | nil => exact absurd rfl nonempty
  | cons letter letters =>
      rw [List.forall_mem_cons] at inner
      obtain ⟨notBlank, noMark, notQuote⟩ := plain_of_isWordChar inner.1
      have taken : (letters ++ rest).takeWhile isWordChar = letters := by
        rw [List.takeWhile_append_of_pos inner.2]
        cases rest with
        | nil => simp
        | cons character rest => simp [ends character rfl]
      have dropped : (letters ++ rest).dropWhile isWordChar = rest := by
        rw [List.dropWhile_append_of_pos inner.2]
        cases rest with
        | nil => rfl
        | cons character rest => simp [ends character rfl]
      rw [List.cons_append, tokens?, if_neg (by simp [notBlank]), noMark]
      dsimp only
      rw [if_neg notQuote, if_pos inner.1, taken, dropped]
      rfl

end Lexes

end ContingentPlan.Json
