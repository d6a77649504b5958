import ContingentPlan.BuiltIn
import ContingentPlan.Proofs.Json.Token
import ContingentPlan.Proofs.Text.Digits
import Mathlib.Data.List.TakeDrop
import Mathlib.Data.List.TakeWhile

/-!
The reader and the writers of JSON do what is documented of a library for JSON. A text conveys a document
when it is cut into tokens that are read as the document; this is shown of the words and quoted texts
first, and passes from the elements and entries to the lists and records that hold them.
-/

namespace ContingentPlan.Json

section Numerals

theorem spanDigits_toDigits (number : Nat) :
    spanDigits (Nat.toDigits 10 number) = (Nat.toDigits 10 number, []) := by
  rw [spanDigits, List.span_eq_takeWhile_dropWhile,
    List.takeWhile_eq_self_iff.mpr fun digit => Text.isDigit_of_mem_toDigits,
    List.dropWhile_eq_nil_iff.mpr fun digit => Text.isDigit_of_mem_toDigits]

theorem readWhole?_toDigits (number : Nat) :
    Numeral.readWhole? (Nat.toDigits 10 number) = some (Nat.toDigits 10 number, []) := by
  unfold Numeral.readWhole?
  rw [spanDigits_toDigits]
  split
  · rename_i empty
    exact absurd (congrArg Prod.fst empty) Nat.toDigits_ne_nil
  · rename_i second others rest zeros
    have digits : Nat.toDigits 10 number = '0' :: second :: others := congrArg Prod.fst zeros
    rcases Nat.eq_zero_or_pos number with rfl | positive
    · simp [Nat.toDigits_zero] at digits
    · exact absurd (by rw [digits]; rfl) (Text.head?_toDigits positive)
  · rfl

theorem ofChars?_toDigits (number : Nat) :
    Numeral.ofChars? (Nat.toDigits 10 number) =
      some ⟨false, Nat.toDigits 10 number, [], false, []⟩ := by
  have unsigned : Numeral.readSign (Nat.toDigits 10 number) = (false, Nat.toDigits 10 number) := by
    unfold Numeral.readSign
    split
    · rename_i rest signed
      have first : '-' ∈ Nat.toDigits 10 number := signed ▸ List.mem_cons_self
      have digit := Text.isDigit_of_mem_toDigits first
      exact absurd digit (by decide)
    · rfl
  simp [Numeral.ofChars?, unsigned, readWhole?_toDigits, Numeral.readFraction?, Numeral.readExponent?]

theorem word?_toDigits {number : Nat} (fits : number < Nat.pow 2 64) :
    word? (Nat.toDigits 10 number) = some (.integer number) := by
  have noLetter : ∀ (first : Char) {name : String}, name.toList.head? = some first →
      Text.isDigit first = false → Nat.toDigits 10 number ≠ name.toList := by
    intro first name head notDigit same
    rw [← same] at head
    rw [Text.isDigit_of_mem_toDigits (List.mem_of_head? head)] at notDigit
    cases notDigit
  have integer : Numeral.integer? ⟨false, Nat.toDigits 10 number, [], false, []⟩ =
      some (number : Int) := by
    simp [Numeral.integer?, Text.valueInBase_toDigits]
    exact fits
  rw [word?, if_neg (noLetter 'n' rfl rfl), if_neg (noLetter 't' rfl rfl),
    if_neg (noLetter 'f' rfl rfl), ofChars?_toDigits, Option.map_some, Numeral.toDocument,
    integer]

end Numerals

/-- The tokens are read as the document, whatever comes behind them. -/
def ReadsAs (tokens : List Token) (document : Document) : Prop :=
  ∀ depth rest, tokens.length ≤ depth → readValue depth (tokens ++ rest) = some (document, rest)

def Conveys (text : List Char) (document : Document) : Prop :=
  ∃ tokens, Lexes text tokens ∧ ReadsAs tokens document

theorem conveys_word {letters : List Char} {document : Document} (nonempty : letters ≠ [])
    (inner : ∀ letter ∈ letters, isWordChar letter = true) (means : word? letters = some document) :
    Conveys letters document := by
  refine ⟨[.word letters], .word nonempty inner, ?_⟩
  intro depth rest deep
  obtain ⟨depth, rfl⟩ := Nat.exists_eq_succ_of_ne_zero (Nat.ne_of_gt deep)
  rw [List.singleton_append, readValue, means]
  rfl

theorem conveys_quoted {quoted : List Char} {content : String}
    (quotes : Quotes quoted content.toList) : Conveys ('"' :: quoted) (.text content) := by
  refine ⟨[.string (some content)], by simpa using Lexes.nil.quoted quotes, ?_⟩
  intro depth rest deep
  obtain ⟨depth, rfl⟩ := Nat.exists_eq_succ_of_ne_zero (Nat.ne_of_gt deep)
  rw [List.singleton_append, readValue]
  rfl

theorem read?_of_conveys {text : String} {document : Document} (conveys : Conveys text.toList document) :
    read? text = some document := by
  obtain ⟨tokens, lexes, reads⟩ := conveys
  have cut := lexes [] (by simp [EndsWord])
  have read := reads (tokens.length + 1) [] (by omega)
  rw [List.append_nil, tokens?, Option.map_some, List.append_nil] at cut
  rw [List.append_nil] at read
  rw [read?, cut, Option.bind_some, ofTokens?, read]

theorem isBlank_of_blank {text : List Char} (blank : Blank text) :
    ∀ character ∈ text, isBlank character = true := by
  have table : [' ', '\t', '\n', '\r'].all isBlank = true := by decide
  exact fun character member => List.all_eq_true.mp table character (blank character member)

section Listing

variable {before after : List Char} {closing : Char} {finish : Token} {α : Type}
  {readItems : Nat → List Token → Option (List α × List Token)}

/-- The text is cut into tokens from which the reader takes the item, whether it is the last one or
others come behind it. -/
def Offers (readItems : Nat → List Token → Option (List α × List Token)) (finish : Token)
    (text : List Char) (item : α) : Prop :=
  ∃ tokens, Lexes text tokens ∧ ∀ depth, tokens.length ≤ depth →
    (∀ rest, readItems (depth + 1) (tokens ++ finish :: rest) = some ([item], rest)) ∧
    ∀ rest items behind, readItems depth rest = some (items, behind) →
      readItems (depth + 1) (tokens ++ .comma :: rest) = some (item :: items, behind)

theorem exists_listing (blankBefore : ∀ character ∈ before, isBlank character = true)
    (blankAfter : ∀ character ∈ after, isBlank character = true)
    (marks : punctuation? closing = some finish) {texts : List (List Char)} {items : List α}
    (offers : List.Forall₂ (Offers readItems finish) texts items) (nonempty : items ≠ []) :
    ∃ tokens, Lexes (listing before after closing texts) tokens ∧ ∀ depth rest,
      tokens.length ≤ depth → readItems depth (tokens ++ rest) = some (items, rest) := by
  induction offers with
  | nil => exact absurd rfl nonempty
  | @cons text item texts items own others ih =>
      obtain ⟨tokens, lexes, read⟩ := own
      cases others with
      | nil =>
          have closed := (Lexes.nil.mark marks).blanks blankAfter
          have ends := (endsWord_blanks blankAfter).append (endsWord_mark marks [])
          refine ⟨tokens ++ [finish], (lexes.append closed ends).blanks blankBefore, ?_⟩
          intro depth rest deep
          rw [List.length_append, List.length_singleton] at deep
          obtain ⟨depth, rfl⟩ := Nat.exists_eq_add_of_le' (Nat.le_of_add_left_le deep)
          rw [List.append_assoc]
          exact (read depth (by omega)).1 rest
      | cons second others =>
          obtain ⟨more, lexesToo, readToo⟩ := ih (by simp)
          have comma : punctuation? ',' = some .comma := rfl
          refine ⟨tokens ++ .comma :: more,
            (lexes.append (lexesToo.mark comma) (endsWord_mark comma _)).blanks blankBefore, ?_⟩
          intro depth rest deep
          rw [List.length_append, List.length_cons] at deep
          obtain ⟨depth, rfl⟩ := Nat.exists_eq_add_of_le' (show 1 ≤ depth by omega)
          rw [List.append_assoc]
          exact (read depth (by omega)).2 _ _ _ (readToo depth rest (by omega))

def ConveysEntry (text : List Char) (entry : Option String × Document) : Prop :=
  ∃ member : Member, member.Formed ∧ text = member.whole ∧
    entry = (some member.name, member.value) ∧ Conveys member.text member.value

theorem offers_of_conveys {text : List Char} {document : Document} (conveys : Conveys text document) :
    Offers readElements .listEnd text document := by
  obtain ⟨tokens, lexes, reads⟩ := conveys
  refine ⟨tokens, lexes, fun depth deep => ⟨fun rest => ?_, fun rest items behind others => ?_⟩⟩
  · rw [readElements, reads _ _ deep]
    rfl
  · rw [readElements, reads _ _ deep]
    simp [others]

theorem offers_of_conveysEntry {text : List Char} {entry : Option String × Document}
    (conveys : ConveysEntry text entry) : Offers readEntries .recordEnd text entry := by
  obtain ⟨member, formed, rfl, rfl, tokens, lexes, reads⟩ := conveys
  have colon : punctuation? ':' = some .colon := rfl
  refine ⟨.string (some member.name) :: .colon :: tokens,
    ((lexes.blanks (isBlank_of_blank formed.gap)).mark colon).quoted formed.quotes, fun depth deep => ?_⟩
  rw [List.length_cons, List.length_cons] at deep
  refine ⟨fun rest => ?_, fun rest items behind others => ?_⟩
  · rw [List.cons_append, List.cons_append, readEntries, reads _ _ (by omega)]
    rfl
  · rw [List.cons_append, List.cons_append, readEntries, reads _ _ (by omega)]
    simp [others]

theorem readElements_listEnd (depth : Nat) (rest : List Token) :
    readElements depth (.listEnd :: rest) = none := by
  rcases depth with - | - | depth
  all_goals rfl

theorem readEntries_recordEnd (depth : Nat) (rest : List Token) :
    readEntries depth (.recordEnd :: rest) = none := by
  cases depth
  all_goals rfl

theorem conveys_bracketed {opening : Char} {start : Token} {wrap : List α → Document}
    (opens : punctuation? opening = some start) (closes : punctuation? closing = some finish)
    (atEnd : ∀ depth rest, readItems depth (finish :: rest) = none)
    (readNone : ∀ depth rest, readValue (depth + 1) (start :: finish :: rest) = some (wrap [], rest))
    (readSome : ∀ depth tokens items rest, (∀ behind, tokens ≠ finish :: behind) →
      readItems depth tokens = some (items, rest) →
      readValue (depth + 1) (start :: tokens) = some (wrap items, rest))
    (blankBefore : ∀ character ∈ before, isBlank character = true)
    (blankAfter : ∀ character ∈ after, isBlank character = true) {texts : List (List Char)}
    {items : List α} (offers : List.Forall₂ (Offers readItems finish) texts items) :
    Conveys (opening :: listing before after closing texts) (wrap items) := by
  by_cases empty : items = []
  · obtain rfl := empty
    cases offers
    refine ⟨[start, finish], (Lexes.nil.mark closes).mark opens, fun depth rest deep => ?_⟩
    obtain ⟨depth, rfl⟩ := Nat.exists_eq_add_of_le' (Nat.le_of_succ_le deep)
    exact readNone depth rest
  · obtain ⟨tokens, lexes, reads⟩ := exists_listing blankBefore blankAfter closes offers empty
    refine ⟨start :: tokens, lexes.mark opens, fun depth rest deep => ?_⟩
    rw [List.length_cons] at deep
    obtain ⟨depth, rfl⟩ := Nat.exists_eq_add_of_le' (show 1 ≤ depth by omega)
    have read := reads depth rest (by omega)
    have others : ∀ behind, tokens ++ rest ≠ finish :: behind := by
      intro behind same
      rw [same, atEnd] at read
      cases read
    exact readSome depth _ items rest others read

theorem conveys_list (blankBefore : ∀ character ∈ before, isBlank character = true)
    (blankAfter : ∀ character ∈ after, isBlank character = true) {texts : List (List Char)}
    {elements : List Document} (conveys : List.Forall₂ Conveys texts elements) :
    Conveys ('[' :: listing before after ']' texts) (.list elements) := by
  apply conveys_bracketed (show punctuation? '[' = some .listStart from rfl) rfl readElements_listEnd (fun _ _ => rfl) ?_
    blankBefore blankAfter (conveys.imp fun _ _ => offers_of_conveys)
  intro depth tokens items rest others read
  rw [readValue, read]
  · rfl
  · exact others

theorem conveys_record (blankBefore : ∀ character ∈ before, isBlank character = true)
    (blankAfter : ∀ character ∈ after, isBlank character = true) {texts : List (List Char)}
    {entries : List (Option String × Document)} (conveys : List.Forall₂ ConveysEntry texts entries) :
    Conveys ('\x7b' :: listing before after '\x7d' texts) (.record entries) := by
  apply conveys_bracketed (show punctuation? '\x7b' = some .recordStart from rfl) rfl readEntries_recordEnd (fun _ _ => rfl) ?_
    blankBefore blankAfter (conveys.imp fun _ _ => offers_of_conveysEntry)
  intro depth tokens items rest others read
  rw [readValue, read]
  · rfl
  · exact others

end Listing

section Writing

theorem toList_listing (before after : String) (closing : Char) {items : List String}
    (nonempty : items ≠ []) :
    before.toList ++ ((("," ++ before).intercalate items).toList ++ (after.toList ++ [closing])) =
      listing before.toList after.toList closing (items.map String.toList) := by
  rw [String.toList_intercalate, String.toList_append]
  induction items with
  | nil => exact absurd rfl nonempty
  | cons item items ih =>
      cases items with
      | nil => simp [listing]
      | cons second items =>
          rw [List.map_cons, List.map_cons, List.intercalate_cons_cons, listing, ← List.map_cons,
            ← ih (by simp)]
          simp

section Brackets

variable {opening closing : String} {first last : Char}

theorem toList_bracketed (opens : opening.toList = [first]) (closes : closing.toList = [last])
    (items : List String) :
    (opening ++ ",".intercalate items ++ closing).toList =
      first :: listing [] [] last (items.map String.toList) := by
  rw [String.toList_append, String.toList_append, opens, closes]
  by_cases empty : items = []
  · simp [empty, listing]
  · have inner := toList_listing "" "" last empty
    simp only [String.toList_empty, List.nil_append, String.append_empty] at inner
    rw [← inner]
    rfl

theorem toList_block (opens : opening.toList = [first]) (closes : closing.toList = [last])
    (level : Nat) (items : List String) :
    (block level opening closing items).toList =
      first :: listing (margin (level + 1)).toList (margin level).toList last
        (items.map String.toList) := by
  unfold block
  by_cases empty : items = []
  · simp [empty, opens, closes, listing]
  · rw [if_neg (by simpa using empty), ← toList_listing _ _ _ empty]
    simp [opens, closes]

end Brackets

theorem blank_nil : Blank [] := fun _ member => nomatch member

theorem blank_margin (level : Nat) : Blank (margin level).toList := by
  intro character member
  simp only [margin, String.toList_append, String.toList_ofList, List.mem_append,
    List.mem_replicate] at member
  rcases member with line | ⟨-, rfl⟩
  · obtain rfl : character = '\n' := by simpa using line
    decide
  · decide

theorem compactElements_eq_map (elements : List Document) :
    compactElements elements = elements.map compact := by
  induction elements with
  | nil => rfl
  | cons element elements ih => rw [compactElements, ih, List.map_cons]

theorem compactEntries_eq_map (entries : List (Option String × Document)) :
    compactEntries entries =
      entries.map fun entry => quote (entry.1.getD "") ++ ":" ++ compact entry.2 := by
  induction entries with
  | nil => rfl
  | cons entry entries ih => rw [compactEntries, ih, List.map_cons]

theorem indentedElements_eq_map (level : Nat) (elements : List Document) :
    indentedElements level elements = elements.map (indented level) := by
  induction elements with
  | nil => rfl
  | cons element elements ih => rw [indentedElements, ih, List.map_cons]

theorem indentedEntries_eq_map (level : Nat) (entries : List (Option String × Document)) :
    indentedEntries level entries =
      entries.map fun entry => quote (entry.1.getD "") ++ ": " ++ indented level entry.2 := by
  induction entries with
  | nil => rfl
  | cons entry entries ih => rw [indentedEntries, ih, List.map_cons]

theorem conveys_boolean (value : Bool) :
    Conveys (if value then "true" else "false").toList (.boolean value) := by
  cases value
  all_goals exact conveys_word (by decide) (List.all_eq_true.mp rfl) rfl

theorem conveys_integer {number : Nat} (fits : number < Nat.pow 2 64) :
    Conveys (Nat.toDigits 10 number) (.integer number) := by
  refine conveys_word Nat.toDigits_ne_nil (fun digit member => ?_) (word?_toDigits fits)
  simp [isWordChar, Text.isLetterOrDigit, Text.isDigit_of_mem_toDigits member]

theorem conveys_real {letters : List Char} {numeral : Numeral} {value : Float}
    (nonempty : letters ≠ []) (inner : ∀ letter ∈ letters, isWordChar letter = true)
    (read : Numeral.ofChars? letters = some numeral) (fractional : numeral.integer? = none)
    (means : numeral.real? = some value) : Conveys letters (.real value) := by
  have other : ∀ {word : List Char}, Numeral.ofChars? word = none → letters ≠ word := by
    rintro word none rfl
    rw [read] at none
    cases none
  refine conveys_word nonempty inner ?_
  rw [word?, if_neg (other (by decide)), if_neg (other (by decide)), if_neg (other (by decide)), read,
    Option.map_some, Numeral.toDocument, fractional, means]

theorem conveys_of_denotes {levels : Nat} {text : List Char} {document : Document}
    (denotes : Denotes levels text document) : Conveys text document := by
  induction denotes with
  | null => exact conveys_word (by decide) (List.all_eq_true.mp rfl) rfl
  | boolean value => exact conveys_boolean value
  | integer fits => exact conveys_integer fits
  | tenth =>
      have read : Numeral.ofChars? "0.1".toList = some ⟨false, ['0'], ['1'], false, []⟩ := by decide
      exact conveys_real (by decide) (List.all_eq_true.mp rfl) read rfl (by decide +kernel)
  | zero =>
      have read : Numeral.ofChars? "0.0".toList = some ⟨false, ['0'], ['0'], false, []⟩ := by decide
      exact conveys_real (by decide) (List.all_eq_true.mp rfl) read rfl (by decide +kernel)
  | text quotes => exact conveys_quoted quotes
  | list before after _ ih =>
      apply conveys_list (isBlank_of_blank before) (isBlank_of_blank after)
      rw [List.forall₂_map_left_iff, List.forall₂_map_right_iff, List.forall₂_same]
      exact ih
  | record before after formed _ ih =>
      apply conveys_record (isBlank_of_blank before) (isBlank_of_blank after)
      rw [List.map_map, List.forall₂_map_left_iff, List.forall₂_map_right_iff, List.forall₂_same]
      exact fun member among => ⟨member, formed member among, rfl, rfl, ih member among⟩

theorem standsFor_escape (character : Char) : StandsFor (escape character) character := by
  unfold escape
  split
  case h_8 notQuote notBackslash _ _ _ _ _ =>
    split
    · rename_i control
      exact .number control
    · rename_i printable
      exact .plain (Nat.le_of_not_lt printable) notQuote notBackslash
  all_goals exact .short (by decide)

theorem exists_quotes (content : String) :
    ∃ quoted, Quotes quoted content.toList ∧ (quote content).toList = '"' :: quoted := by
  refine ⟨content.toList.flatMap escape ++ ['"'], ?_, by simp [quote]⟩
  induction content.toList with
  | nil => exact .nil
  | cons character characters ih =>
      rw [List.flatMap_cons, List.append_assoc]
      exact .cons (standsFor_escape character) ih

theorem exists_member (entry : String × Document) (gap : String) (blank : Blank gap.toList)
    (text : String) :
    ∃ member : Member, member.Formed ∧ member.entry = entry ∧ member.text = text.toList ∧
      member.whole = (quote entry.1 ++ ":" ++ gap ++ text).toList := by
  obtain ⟨quoted, quotes, spelled⟩ := exists_quotes entry.1
  refine ⟨⟨entry.1, quoted, gap.toList, text.toList, entry.2⟩, ⟨quotes, blank⟩, rfl, rfl, ?_⟩
  simp [Member.whole, spelled]

theorem denotes_list {levels : Nat} {before after : List Char} {elements : List Document}
    (write : Document → String) (blankBefore : Blank before) (blankAfter : Blank after)
    (each : ∀ element ∈ elements, Denotes levels (write element).toList element) :
    Denotes (levels + 1) ('[' :: listing before after ']' ((elements.map write).map String.toList))
      (.list elements) := by
  have list := @Denotes.list levels before after
    (elements.map fun element => ((write element).toList, element)) blankBefore blankAfter
    (List.forall_mem_map.mpr each)
  simpa [Function.comp_def] using list

theorem denotes_record {levels : Nat} {before after : List Char} {entries : List (String × Document)}
    (write : Document → String) (gap : String) (blankBefore : Blank before) (blankAfter : Blank after)
    (blankGap : Blank gap.toList)
    (each : ∀ entry ∈ entries, Denotes levels (write entry.2).toList entry.2) :
    Denotes (levels + 1)
      ('\x7b' :: listing before after '\x7d'
        ((entries.map fun entry => quote entry.1 ++ ":" ++ gap ++ write entry.2).map String.toList))
      (.fields entries) := by
  choose member formed entry text whole using fun entry : String × Document =>
    exists_member entry gap blankGap (write entry.2)
  have values : ∀ own ∈ entries, Denotes levels (member own).text (member own).value := by
    intro own among
    rw [text, show (member own).value = own.2 from congrArg Prod.snd (entry own)]
    exact each own among
  have record := @Denotes.record levels before after (entries.map member) blankBefore blankAfter
    (List.forall_mem_map.mpr fun entry _ => formed entry) (List.forall_mem_map.mpr values)
  simpa [Function.comp_def, entry, whole] using record

theorem denotes_integer {levels number : Nat} (fits : number < Nat.pow 2 64) :
    Denotes levels (toString (number : Int)).toList (.integer number) := by
  have digits : (toString (number : Int)).toList = Nat.toDigits 10 number := by
    change (toString number).toList = _
    rw [Nat.toString_eq_ofList_toDigits, String.toList_ofList]
  rw [digits]
  exact .integer fits

theorem denotes_quote {levels : Nat} (value : String) :
    Denotes levels (quote value).toList (.text value) := by
  obtain ⟨quoted, quotes, spelled⟩ := exists_quotes value
  rw [spelled]
  exact .text quotes

theorem writeReal_tenth : writeReal 0.1 = "0.1" := by decide +kernel

theorem writeReal_zero : writeReal 0.0 = "0.0" := by decide +kernel

theorem denotes_compact {levels : Nat} {document : Document} (writable : Writable levels document) :
    Denotes levels (compact document).toList document := by
  induction writable with
  | null => exact .null
  | boolean value => exact .boolean value
  | integer fits => exact denotes_integer fits
  | tenth =>
      rw [compact, writeReal_tenth]
      exact .tenth
  | zero =>
      rw [compact, writeReal_zero]
      exact .zero
  | text value => exact denotes_quote value
  | @list levels elements _ ih =>
      rw [compact, @toList_bracketed "[" "]" '[' ']' rfl rfl, compactElements_eq_map]
      exact denotes_list compact blank_nil blank_nil ih
  | @fields levels entries _ ih =>
      rw [Document.fields, compact, @toList_bracketed "\x7b" "\x7d" '\x7b' '\x7d' rfl rfl,
        compactEntries_eq_map, List.map_map]
      have record := denotes_record compact "" blank_nil blank_nil blank_nil ih
      simpa [Document.fields, Function.comp_def] using record

theorem denotes_indented {levels : Nat} {document : Document} (writable : Writable levels document)
    (level : Nat) : Denotes levels (indented level document).toList document := by
  induction writable generalizing level with
  | null => exact .null
  | boolean value => exact .boolean value
  | integer fits => exact denotes_integer fits
  | tenth =>
      rw [indented, writeReal_tenth]
      exact .tenth
  | zero =>
      rw [indented, writeReal_zero]
      exact .zero
  | text value => exact denotes_quote value
  | @list levels elements _ ih =>
      rw [indented, @toList_block "[" "]" '[' ']' rfl rfl, indentedElements_eq_map]
      exact denotes_list _ (blank_margin _) (blank_margin _) fun element member =>
        ih element member (level + 1)
  | @fields levels entries _ ih =>
      rw [Document.fields, indented, @toList_block "\x7b" "\x7d" '\x7b' '\x7d' rfl rfl,
        indentedEntries_eq_map, List.map_map]
      have record := denotes_record (indented (level + 1)) " " (blank_margin (level + 1))
        (blank_margin level) (by simp [Blank]) fun entry member => ih entry member (level + 1)
      simpa [Document.fields, Function.comp_def] using record

theorem codec_documented : Documented codec where
  compact document writable := ⟨_, rfl, denotes_compact writable⟩
  pretty document writable := ⟨_, rfl, denotes_indented writable 0⟩
  read text document denotes := by
    change (read? text).elim _ _ = _
    rw [read?_of_conveys (conveys_of_denotes denotes)]
    rfl

end Writing

end ContingentPlan.Json
