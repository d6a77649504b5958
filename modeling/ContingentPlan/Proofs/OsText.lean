import ContingentPlan.OsText
import Mathlib.Data.List.Basic

/-!
Texts of the operating system and the texts that stand for them. A text in UTF-8 stands for itself. What
stands for other bytes is a different text, but it has no character in ASCII that the bytes do not have.
-/

namespace ContingentPlan.OsText

variable {name : OsText} {text : String}

theorem ofText_injective {first second : String} (same : ofText first = ofText second) :
    first = second := by
  have bytes : first.toByteArray.data.toList = second.toByteArray.data.toList :=
    congrArg OsText.bytes same
  exact String.toByteArray_inj.mp (ByteArray.ext (Array.toList_inj.mp bytes))

@[simp] theorem text?_ofText (text : String) : text? (ofText text) = some text := by
  rw [text?, ofText, Array.toArray_toList]
  exact dif_pos text.isValidUTF8

@[simp] theorem lossy_ofText (text : String) : lossy (ofText text) = text := by
  rw [lossy, text?_ofText, Option.getD_some]

theorem ofText_of_text? (spelled : name.text? = some text) : ofText text = name := by
  unfold text? String.fromUTF8? at spelled
  split at spelled
  · cases spelled
    rfl
  · cases spelled

theorem ofText_lossy_eq_iff : ofText name.lossy = name ↔ name.text?.isSome := by
  constructor
  · intro same
    rw [← same, text?_ofText]
    rfl
  · intro spelled
    obtain ⟨text, spelled⟩ := Option.isSome_iff_exists.mp spelled
    rw [lossy, spelled, Option.getD_some]
    exact ofText_of_text? spelled

theorem bytes_ofText_ofList (characters : List Char) :
    (ofText (String.ofList characters)).bytes = characters.flatMap String.utf8EncodeChar := by
  change (String.ofList characters).toByteArray.data.toList = _
  rw [String.toByteArray_ofList, List.utf8Encode, List.toList_data_toByteArray]

theorem eq_of_mem_utf8EncodeChar {character : Char} {byte : UInt8} (low : byte.toNat < 0x80)
    (member : byte ∈ String.utf8EncodeChar character) : character.toNat = byte.toNat := by
  rw [String.utf8EncodeChar] at member
  change character.val.toNat = _
  split_ifs at member <;> simp only [List.mem_cons, List.not_mem_nil, or_false] at member
  · rw [member, UInt8.toNat_ofNat']
    omega
  · rcases member with rfl | rfl <;> rw [UInt8.toNat_ofNat'] at low <;> omega
  · rcases member with rfl | rfl | rfl <;> rw [UInt8.toNat_ofNat'] at low <;> omega
  · rcases member with rfl | rfl | rfl | rfl <;> rw [UInt8.toNat_ofNat'] at low <;> omega

theorem eq_slash_of_ofNat {code : Nat} (slash : Char.ofNat code = '/') : code = 0x2F := by
  by_cases valid : code.isValidChar
  · rw [Char.ofNat, dif_pos valid] at slash
    exact congrArg Char.toNat slash
  · rw [Char.ofNat, dif_neg valid] at slash
    cases slash

/-- What is pending can only be completed to a character that is not in ASCII. -/
structure Pending.Wide (pending : Pending) : Prop where
  ranges : ∀ range ∈ pending.ranges, 0x80 ≤ range.1 ∧ range.2 ≤ 0xBF
  bits : 2 ≤ pending.bits ∨ pending.ranges = [] ∨ ∃ low high range ranges,
    pending.ranges = (low, high) :: range :: ranges ∧ 2 ≤ 64 * pending.bits + (low - 0x80)

theorem Pending.wide_empty : Wide {} := ⟨nofun, Or.inr (Or.inl rfl)⟩

theorem startWith_slash {byte : Nat} (slash : '/' ∈ (startWith byte).1) : byte = 0x2F := by
  unfold startWith at slash
  split at slash
  · exact eq_slash_of_ofNat (List.mem_singleton.mp slash).symm
  · split at slash
    · exact absurd slash (by decide)
    · exact absurd slash List.not_mem_nil

theorem bounds_of_mem_following {byte : Nat} {range : Nat × Nat} (member : range ∈ following byte) :
    0x80 ≤ range.1 ∧ range.2 ≤ 0xBF := by
  unfold following at member
  dsimp only at member
  split_ifs at member <;> simp at member <;> rcases member with rfl | rfl <;> simp

theorem wide_following {byte : Nat} (begins : following byte ≠ []) :
    Pending.Wide { bits := byte % Nat.pow 2 (6 - (following byte).length), ranges := following byte } where
  ranges _ member := bounds_of_mem_following member
  bits := by
    unfold following at begins ⊢
    dsimp only at begins ⊢
    split_ifs at begins ⊢ <;> simp at begins ⊢ <;> omega

theorem startWith_wide (byte : Nat) : (startWith byte).2.Wide := by
  unfold startWith
  split
  · exact Pending.wide_empty
  · split
    · exact Pending.wide_empty
    · rename_i begins
      exact wide_following begins

namespace Pending

variable {pending : Pending} {byte : Nat}

theorem Wide.two_le {bits low high : Nat} {ranges : List (Nat × Nat)}
    (wide : Wide ⟨bits, (low, high) :: ranges⟩) (within : low ≤ byte ∧ byte ≤ high) :
    2 ≤ 64 * bits + byte % 64 := by
  have bounds := wide.ranges _ List.mem_cons_self
  rcases wide.bits with large | none | ⟨low, high, range, ranges, same, large⟩
  · dsimp only at large
    omega
  · cases none
  · cases same
    dsimp only at bounds large
    omega

theorem Wide.goOn (wide : pending.Wide) (byte : Nat) :
    ('/' ∈ (pending.goOn byte).1 → byte = 0x2F) ∧ (pending.goOn byte).2.Wide := by
  obtain ⟨bits, ranges⟩ := pending
  cases ranges with
  | nil => exact ⟨startWith_slash, startWith_wide byte⟩
  | cons range ranges =>
      obtain ⟨low, high⟩ := range
      unfold Pending.goOn
      dsimp only
      split
      · rename_i within
        cases ranges with
        | nil =>
            have larger : 2 ≤ bits := by
              rcases wide.bits with large | none | ⟨_, _, _, _, same, _⟩
              · exact large
              · cases none
              · cases same
            refine ⟨fun slash => ?_, wide_empty⟩
            have code := eq_slash_of_ofNat (List.mem_singleton.mp slash).symm
            omega
        | cons next ranges =>
            exact ⟨fun slash => absurd slash List.not_mem_nil,
              fun range member => wide.ranges range (List.mem_cons_of_mem _ member),
              Or.inl (wide.two_le within)⟩
      · refine ⟨fun slash => ?_, startWith_wide byte⟩
        rcases List.mem_cons.mp slash with replaced | slash
        · exact absurd replaced (by decide)
        · exact startWith_slash slash

theorem Wide.slash_mem (wide : pending.Wide) {bytes : List UInt8} (slash : '/' ∈ pending.decode bytes) :
    0x2F ∈ bytes := by
  induction bytes generalizing pending with
  | nil =>
      rw [decode] at slash
      split at slash <;> simp at slash
  | cons byte bytes ih =>
      obtain ⟨now, later⟩ := wide.goOn byte.toNat
      rcases List.mem_append.mp slash with first | rest
      · exact List.mem_cons.mpr (Or.inl (UInt8.toNat_inj.mp (now first)).symm)
      · exact List.mem_cons_of_mem byte (ih later rest)

end Pending

/-- The text that stands for a name has a slash only if the name has one. -/
theorem slash_not_mem_lossy (bare : 0x2F ∉ name.bytes) : 0x2F ∉ (ofText name.lossy).bytes := by
  cases spelled : name.text? with
  | some text => rwa [lossy, spelled, Option.getD_some, ofText_of_text? spelled]
  | none =>
      rw [lossy, spelled, Option.getD_none, bytes_ofText_ofList, List.mem_flatMap]
      rintro ⟨character, member, encoded⟩
      have slash : character = '/' :=
        Char.toNat_inj.mp (eq_of_mem_utf8EncodeChar (by decide) encoded)
      exact bare (Pending.wide_empty.slash_mem (slash ▸ member))

end ContingentPlan.OsText
