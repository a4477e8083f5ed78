import ChipEight.Instruction.Assembly
import Mathlib.Data.List.Nodup

/-!
# Reading lines

A line is cut at its blanks into words, the mnemonic and the operands, all operands but the last
with a comma.  Neither holds a blank, so that lines that are written alike have the same mnemonic
and operands that are written alike.  An operand can then be read back, unless it is a count of
rows: those look like bytes and glyphs.
-/

namespace ChipEight

open Text

/-! ## Digits -/

namespace Text

theorem digit_zero (letters : LetterCase) : letters.digit 0 = '0' := by
  cases letters <;> rfl

theorem hexDigits_one (letters : LetterCase) (value : Nibble) :
    hexDigits letters 1 value.val = [letters.digit value] := by
  rw [hexDigits, dif_pos value.isLt]
  rfl

/-- The last digit of a numeral stands for the remainder, the others for the quotient. -/
theorem hexDigits_succ (letters : LetterCase) (width value : Nat) :
    hexDigits letters (width + 2) value =
      hexDigits letters (width + 1) (value / 16) ++ [letters.digit (Fin.ofNat 16 value)] := by
  by_cases small : value < 16
  · have first : (0 : Nat) < 16 := by decide
    have quotient : value / 16 = 0 := Nat.div_eq_of_lt small
    have remainder : Fin.ofNat 16 value = ⟨value, small⟩ := Fin.ext (Nat.mod_eq_of_lt small)
    have zero : letters.digit ⟨0, first⟩ = '0' := digit_zero letters
    rw [quotient, remainder, hexDigits, dif_pos small, hexDigits, dif_pos first, zero]
    simp [List.replicate_succ']
  · rw [hexDigits, dif_neg small]
    rfl

/-- A byte is written with exactly two digits, the upper one first. -/
theorem hexDigits_byte (letters : LetterCase) (value : Byte) :
    hexDigits letters 2 value.toNat =
      [letters.digit (Fin.ofNat 16 (value.toNat / 16)),
        letters.digit (Fin.ofNat 16 value.toNat)] := by
  have small : value.toNat / 16 < 16 := by
    have bound := value.toNat_lt
    omega
  have upper := hexDigits_one letters ⟨value.toNat / 16, small⟩
  have same : Fin.ofNat 16 (value.toNat / 16) = ⟨value.toNat / 16, small⟩ :=
    Fin.ext (Nat.mod_eq_of_lt small)
  rw [hexDigits_succ, same]
  exact congrArg (· ++ _) upper

theorem hexDigits_address (letters : LetterCase) (target : Address) :
    hexDigits letters 3 target.val =
      [letters.digit (Fin.ofNat 16 (target.val / 256)),
        letters.digit (Fin.ofNat 16 (target.val / 16)),
        letters.digit (Fin.ofNat 16 target.val)] := by
  have small : target.val / 16 / 16 < 16 := by omega
  have upper := hexDigits_one letters ⟨target.val / 16 / 16, small⟩
  have same : Fin.ofNat 16 (target.val / 256) = ⟨target.val / 16 / 16, small⟩ := by
    apply Fin.ext
    simp only [Fin.ofNat]
    omega
  rw [hexDigits_succ, hexDigits_succ, same]
  exact congrArg (· ++ _ ++ _) upper

theorem toList_hexNumeral (letters : LetterCase) (width value : Nat) :
    (hexNumeral letters width value).toList = hexDigits letters width value :=
  String.toList_ofList

/-- The digit that a character stands for. -/
def digit? (c : Char) : Option Nibble :=
  (List.finRange 16).find? fun value => LetterCase.upper.digit value = c

/-- A written digit is read back. -/
theorem digit?_digit (value : Nibble) : digit? (LetterCase.upper.digit value) = some value := by
  revert value
  decide

theorem digit_injective : Function.Injective LetterCase.upper.digit := by
  intro first second same
  have read := digit?_digit first
  rw [same, digit?_digit second] at read
  exact (Option.some.inj read).symm

/-- A character that is not a digit differs from every digit; so blanks and commas end a number. -/
theorem digit_ne {c : Char} (other : digit? c = none) (value : Nibble) :
    LetterCase.upper.digit value ≠ c := by
  rintro rfl
  rw [digit?_digit] at other
  cases other

end Text

/-! ## Operands -/

namespace Operand

/-- The characters of an operand. -/
def chars (operand : Operand) : List Char :=
  operand.text.toList

theorem chars_register (x : Register) :
    (register x).chars = ['V', LetterCase.upper.digit x] := by
  have digits := (toList_hexNumeral .upper 1 x.val).trans (hexDigits_one .upper x)
  simp only [chars, text, String.toList_append, digits]
  rfl

theorem chars_byte (value : Byte) :
    (byte value).chars = [LetterCase.upper.digit (Fin.ofNat 16 (value.toNat / 16)),
      LetterCase.upper.digit (Fin.ofNat 16 value.toNat)] :=
  (toList_hexNumeral .upper 2 value.toNat).trans (hexDigits_byte .upper value)

theorem chars_address (target : Address) :
    (address target).chars = [LetterCase.upper.digit (Fin.ofNat 16 (target.val / 256)),
      LetterCase.upper.digit (Fin.ofNat 16 (target.val / 16)),
      LetterCase.upper.digit (Fin.ofNat 16 target.val)] :=
  (toList_hexNumeral .upper 3 target.val).trans (hexDigits_address .upper target)

theorem chars_rows (count : Nibble) : (rows count).chars = [LetterCase.upper.digit count] :=
  (toList_hexNumeral .upper 1 count.val).trans (hexDigits_one .upper count)

/-- No operand contains the blank that separates the words of a line. -/
theorem blank_notMem_chars (operand : Operand) : ' ' ∉ operand.chars := by
  have digit (value : Nibble) : ' ' ≠ LetterCase.upper.digit value :=
    (digit_ne (by decide) value).symm
  cases operand with
  | register x => simp [chars_register, digit]
  | byte value => simp [chars_byte, digit]
  | address target => simp [chars_address, digit]
  | rows count => simp [chars_rows, digit]
  | index | atIndex | delayTimer | soundTimer | key | glyph | decimal => decide

/-- Reads a register, a byte or an address. -/
def readNumber? : List Char → Option Operand
  | [first, last] =>
      if first = 'V' then
        (digit? last).map .register
      else do
        let upper ← digit? first
        let lower ← digit? last
        return .byte (UInt8.ofNat (upper.val * 16 + lower.val))
  | [first, middle, last] => do
      let upper ← digit? first
      let inner ← digit? middle
      let lower ← digit? last
      return .address (Fin.ofNat 4096 (upper.val * 256 + inner.val * 16 + lower.val))
  | _ => none

/-- The operands without a number. -/
def fixed : List Operand :=
  [.index, .atIndex, .delayTimer, .soundTimer, .key, .glyph, .decimal]

/-- Reads an operand that is no count of rows. -/
def read? (text : List Char) : Option Operand :=
  (readNumber? text).or (fixed.find? fun operand => operand.chars = text)

theorem readNumber?_register (x : Register) :
    readNumber? ['V', LetterCase.upper.digit x] = some (.register x) := by
  rw [readNumber?, if_pos rfl, digit?_digit]
  rfl

/-- Two digits are read as a byte, by the number of the digits alone. -/
theorem readNumber?_byte (upper lower : Nibble) :
    readNumber? [LetterCase.upper.digit upper, LetterCase.upper.digit lower] =
      some (.byte (UInt8.ofNat (upper.val * 16 + lower.val))) := by
  have noRegister : LetterCase.upper.digit upper ≠ 'V' := digit_ne (by decide) upper
  rw [readNumber?, if_neg noRegister, digit?_digit, digit?_digit]
  rfl

/-- Three digits are read as an address. -/
theorem readNumber?_address (upper inner lower : Nibble) :
    readNumber? [LetterCase.upper.digit upper, LetterCase.upper.digit inner,
        LetterCase.upper.digit lower] =
      some (.address (Fin.ofNat 4096 (upper.val * 256 + inner.val * 16 + lower.val))) := by
  rw [readNumber?, digit?_digit, digit?_digit, digit?_digit]
  rfl

/-- An operand is read back, except for a number of rows, which looks like any single digit. -/
theorem read?_chars {operand : Operand} (plain : ∀ count, operand ≠ .rows count) :
    read? operand.chars = some operand := by
  cases operand with
  | rows count => exact absurd rfl (plain count)
  | index | atIndex | delayTimer | soundTimer | key | glyph | decimal => decide
  | register x => rw [read?, chars_register, readNumber?_register, Option.some_or]
  | byte value =>
      have bound := value.toNat_lt
      have whole : value.toNat / 16 % 16 * 16 + value.toNat % 16 = value.toNat := by omega
      rw [read?, chars_byte, readNumber?_byte, Option.some_or]
      simp only [Fin.ofNat, whole, UInt8.ofNat_toNat]
  | address target =>
      have whole : target.val / 256 % 16 * 256 + target.val / 16 % 16 * 16 + target.val % 16 =
          target.val := by omega
      rw [read?, chars_address, readNumber?_address, Option.some_or]
      simp only [Fin.ofNat, whole, Nat.mod_eq_of_lt target.isLt]

end Operand

/-! ## Mnemonics -/

namespace Mnemonic

def all : List Mnemonic :=
  [.cls, .ret, .jp, .call, .se, .sne, .ld, .add, .or, .and, .xor, .sub, .shr, .subn, .shl, .rnd,
    .drw, .skp, .sknp]

theorem mem_all (mnemonic : Mnemonic) : mnemonic ∈ all := by
  cases mnemonic <;> decide

/-- No two mnemonics are written alike. -/
theorem text_injective : Function.Injective text := by
  have different : (all.map text).Nodup := by decide
  intro first second same
  exact List.inj_on_of_nodup_map different (mem_all first) (mem_all second) same

theorem blank_notMem_text (mnemonic : Mnemonic) : ' ' ∉ mnemonic.text.toList := by
  cases mnemonic <;> decide

end Mnemonic

/-! ## Lines -/

/-- Texts with a comma behind all of them but the last. -/
def withCommas : List (List Char) → List (List Char)
  | [] => []
  | [last] => [last]
  | first :: second :: rest => (first ++ [',']) :: withCommas (second :: rest)

theorem withCommas_ne_nil (first : List Char) (rest : List (List Char)) :
    withCommas (first :: rest) ≠ [] := by
  cases rest <;> simp [withCommas]

theorem intercalate_withCommas (texts : List (List Char)) :
    [',', ' '].intercalate texts = [' '].intercalate (withCommas texts) := by
  induction texts with
  | nil => rfl
  | cons first rest inductionHypothesis =>
      cases rest with
      | nil => rfl
      | cons second rest =>
          rw [withCommas, List.intercalate_cons_cons, inductionHypothesis,
            List.intercalate_cons_of_ne_nil (withCommas_ne_nil second rest)]
          simp

/-- The commas can be taken away again, since they stand behind every operand but the last. -/
theorem withCommas_injective : Function.Injective withCommas := by
  intro texts others same
  induction texts generalizing others with
  | nil =>
      cases others with
      | nil => rfl
      | cons other others => exact absurd same.symm (withCommas_ne_nil other others)
  | cons first rest inductionHypothesis =>
      cases others with
      | nil => exact absurd same (withCommas_ne_nil first rest)
      | cons other others =>
          cases rest with
          | nil =>
              cases others with
              | nil => exact same
              | cons second others =>
                  have short := (List.cons.inj same).2
                  exact absurd short.symm (withCommas_ne_nil second others)
          | cons second rest =>
              cases others with
              | nil =>
                  have short := (List.cons.inj same).2
                  exact absurd short (withCommas_ne_nil second rest)
              | cons third others =>
                  obtain ⟨heads, tails⟩ := List.cons.inj same
                  rw [List.append_cancel_right heads, inductionHypothesis tails]

theorem mem_withCommas {texts : List (List Char)} {word : List Char}
    (member : word ∈ withCommas texts) : ∃ text ∈ texts, word = text ∨ word = text ++ [','] := by
  induction texts with
  | nil => cases member
  | cons first rest inductionHypothesis =>
      cases rest with
      | nil => exact ⟨first, List.mem_cons_self, Or.inl (List.mem_singleton.mp member)⟩
      | cons second rest =>
          rcases List.mem_cons.mp member with same | later
          · exact ⟨first, List.mem_cons_self, Or.inr same⟩
          · obtain ⟨text, among, cut⟩ := inductionHypothesis later
            exact ⟨text, List.mem_cons_of_mem first among, cut⟩

namespace Line

/-- What stands between the blanks of a line. -/
def words (line : Line) : List (List Char) :=
  line.mnemonic.text.toList :: withCommas (line.operands.map Operand.chars)

theorem toList_text (line : Line) : line.text.toList = [' '].intercalate line.words := by
  obtain ⟨mnemonic, operands⟩ := line
  cases operands with
  | nil => simp [text, words, withCommas]
  | cons operand operands =>
      rw [words, List.intercalate_cons_of_ne_nil (by simpa using withCommas_ne_nil _ _),
        ← intercalate_withCommas]
      simp only [text, String.toList_append, String.toList_intercalate, List.map_map]
      rfl

theorem blank_notMem_words (line : Line) : ∀ word ∈ line.words, ' ' ∉ word := by
  intro word member
  rcases List.mem_cons.mp member with rfl | among
  · exact line.mnemonic.blank_notMem_text
  · obtain ⟨text, mapped, cut⟩ := mem_withCommas among
    obtain ⟨operand, _, rfl⟩ := List.mem_map.mp mapped
    have absent := operand.blank_notMem_chars
    rcases cut with rfl | rfl
    · exact absent
    · simp [absent]

/-- The words of a line are found again between its blanks. -/
theorem splitOn_text (line : Line) : line.text.toList.splitOn ' ' = line.words := by
  rw [toList_text]
  exact List.splitOn_intercalate ' ' line.blank_notMem_words (List.cons_ne_nil _ _)

/-- Lines that are written alike have the same mnemonic, and operands that are written alike. -/
theorem alike_of_text_eq {line other : Line} (same : line.text = other.text) :
    line.mnemonic = other.mnemonic ∧
      line.operands.map Operand.chars = other.operands.map Operand.chars := by
  have words : line.words = other.words := by
    rw [← splitOn_text, ← splitOn_text, same]
  obtain ⟨mnemonics, operands⟩ := List.cons.inj words
  exact ⟨Mnemonic.text_injective (String.toList_inj.mp mnemonics), withCommas_injective operands⟩

end Line

end ChipEight
