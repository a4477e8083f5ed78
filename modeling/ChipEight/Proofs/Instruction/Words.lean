import ChipEight.Instruction

/-!
# The words of instructions

`Instruction.word` puts an instruction back into the word that encodes it.  Decoding undoes it, and
`ofOpcode?_eq_some_iff` says that an instruction is read off its own word only.
-/

namespace ChipEight

/-! ## Words and their fields -/

namespace Opcode

/-- The word with a kind and an address. -/
def ofAddress (kind : Nibble) (address : Address) : Opcode :=
  UInt16.ofNat (kind.val * 4096 + address.val)

/-- The word with a kind, a register and a byte. -/
def ofByte (kind : Nibble) (x : Register) (byte : Byte) : Opcode :=
  UInt16.ofNat (kind.val * 4096 + x.val * 256 + byte.toNat)

/-- The word with a kind, two registers and a last nibble. -/
def ofNibbles (kind : Nibble) (x y : Register) (n : Nibble) : Opcode :=
  UInt16.ofNat (kind.val * 4096 + x.val * 256 + y.val * 16 + n.val)

theorem toNat_ofAddress (kind : Nibble) (address : Address) :
    (ofAddress kind address).toNat = kind.val * 4096 + address.val := by
  have small : kind.val * 4096 + address.val < 65536 := by omega
  exact UInt16.toNat_ofNat_of_lt' small

theorem toNat_ofByte (kind : Nibble) (x : Register) (byte : Byte) :
    (ofByte kind x byte).toNat = kind.val * 4096 + x.val * 256 + byte.toNat := by
  have byteSmall := byte.toNat_lt
  have small : kind.val * 4096 + x.val * 256 + byte.toNat < 65536 := by omega
  exact UInt16.toNat_ofNat_of_lt' small

/-- A word is the number with its four parts as hexadecimal digits. -/
theorem toNat_ofNibbles (kind : Nibble) (x y : Register) (n : Nibble) :
    (ofNibbles kind x y n).toNat = kind.val * 4096 + x.val * 256 + y.val * 16 + n.val := by
  have small : kind.val * 4096 + x.val * 256 + y.val * 16 + n.val < 65536 := by omega
  exact UInt16.toNat_ofNat_of_lt' small

theorem val_kind (op : Opcode) : op.kind.val = op.toNat / 4096 := by
  have small := op.toNat_lt
  simp only [kind, Fin.ofNat]
  omega

theorem val_x (op : Opcode) : op.x.val = op.toNat / 256 % 16 :=
  rfl

theorem val_y (op : Opcode) : op.y.val = op.toNat / 16 % 16 :=
  rfl

theorem val_n (op : Opcode) : op.n.val = op.toNat % 16 :=
  rfl

theorem val_address (op : Opcode) : op.address.val = op.toNat % 4096 :=
  rfl

theorem toNat_byte (op : Opcode) : op.byte.toNat = op.toNat % 256 :=
  UInt8.toNat_ofNat'

/-- Every word is put together from its kind and its address. -/
theorem ofAddress_fields (op : Opcode) : ofAddress op.kind op.address = op := by
  apply UInt16.toNat_inj.mp
  rw [toNat_ofAddress, val_kind, val_address]
  omega

/-- A word is put together from its kind, its register and its byte. -/
theorem ofByte_fields (op : Opcode) : ofByte op.kind op.x op.byte = op := by
  apply UInt16.toNat_inj.mp
  rw [toNat_ofByte, val_kind, val_x, toNat_byte]
  omega

/-- A word is put together from its four digits. -/
theorem ofNibbles_fields (op : Opcode) : ofNibbles op.kind op.x op.y op.n = op := by
  apply UInt16.toNat_inj.mp
  rw [toNat_ofNibbles, val_kind, val_x, val_y, val_n]
  omega

section Fields

variable (kind : Nibble) (x y : Register) (n : Nibble) (address : Address) (byte : Byte)

theorem kind_ofAddress : (ofAddress kind address).kind = kind := by
  apply Fin.ext
  rw [val_kind, toNat_ofAddress]
  omega

theorem address_ofAddress : (ofAddress kind address).address = address := by
  apply Fin.ext
  rw [val_address, toNat_ofAddress]
  omega

theorem kind_ofByte : (ofByte kind x byte).kind = kind := by
  have small := byte.toNat_lt
  apply Fin.ext
  rw [val_kind, toNat_ofByte]
  omega

theorem x_ofByte : (ofByte kind x byte).x = x := by
  have small := byte.toNat_lt
  apply Fin.ext
  rw [val_x, toNat_ofByte]
  omega

theorem byte_ofByte : (ofByte kind x byte).byte = byte := by
  have small := byte.toNat_lt
  apply UInt8.toNat_inj.mp
  rw [toNat_byte, toNat_ofByte]
  omega

theorem kind_ofNibbles : (ofNibbles kind x y n).kind = kind := by
  apply Fin.ext
  rw [val_kind, toNat_ofNibbles]
  omega

theorem x_ofNibbles : (ofNibbles kind x y n).x = x := by
  apply Fin.ext
  rw [val_x, toNat_ofNibbles]
  omega

theorem y_ofNibbles : (ofNibbles kind x y n).y = y := by
  apply Fin.ext
  rw [val_y, toNat_ofNibbles]
  omega

theorem n_ofNibbles : (ofNibbles kind x y n).n = n := by
  apply Fin.ext
  rw [val_n, toNat_ofNibbles]
  omega

end Fields

end Opcode

/-! ## Words of instructions -/

/-- The nibble that selects an operation on two registers. -/
def Alu.nibble : Alu → Nibble
  | .copy => 0x0
  | .or => 0x1
  | .and => 0x2
  | .xor => 0x3
  | .add => 0x4
  | .subtract => 0x5
  | .shiftRight => 0x6
  | .subtractFrom => 0x7
  | .shiftLeft => 0xE

theorem Alu.ofNibble?_nibble (operation : Alu) : ofNibble? operation.nibble = some operation := by
  cases operation <;> rfl

/-- The digit that selects an operation is the digit of the operation. -/
theorem Alu.nibble_of_ofNibble? {n : Nibble} {operation : Alu}
    (selected : ofNibble? n = some operation) : operation.nibble = n := by
  simp only [ofNibble?] at selected
  split at selected <;> cases selected <;> rfl

namespace Instruction

open Opcode

/-- The word that encodes an instruction. -/
def word : Instruction → Opcode
  | .clearScreen => 0x00E0
  | .ret => 0x00EE
  | .jump target => ofAddress 0x1 target
  | .call target => ofAddress 0x2 target
  | .skipIfByte x value => ofByte 0x3 x value
  | .skipUnlessByte x value => ofByte 0x4 x value
  | .skipIfEqual x y => ofNibbles 0x5 x y 0
  | .loadByte x value => ofByte 0x6 x value
  | .addByte x value => ofByte 0x7 x value
  | .arithmetic operation x y => ofNibbles 0x8 x y operation.nibble
  | .skipUnlessEqual x y => ofNibbles 0x9 x y 0
  | .loadIndex target => ofAddress 0xA target
  | .jumpOffset base => ofAddress 0xB base
  | .random x mask => ofByte 0xC x mask
  | .draw x y rows => ofNibbles 0xD x y rows
  | .skipIfPressed x => ofByte 0xE x 0x9E
  | .skipUnlessPressed x => ofByte 0xE x 0xA1
  | .readDelay x => ofByte 0xF x 0x07
  | .awaitKey x => ofByte 0xF x 0x0A
  | .setDelay x => ofByte 0xF x 0x15
  | .setSound x => ofByte 0xF x 0x18
  | .addIndex x => ofByte 0xF x 0x1E
  | .loadGlyph x => ofByte 0xF x 0x29
  | .storeDecimal x => ofByte 0xF x 0x33
  | .storeRegisters x => ofByte 0xF x 0x55
  | .loadRegisters x => ofByte 0xF x 0x65

/-- Every instruction is decoded from its own word. -/
theorem ofOpcode?_word (instruction : Instruction) :
    ofOpcode? instruction.word = some instruction := by
  cases instruction with
  | clearScreen => rfl
  | ret => rfl
  | arithmetic operation x y =>
      simp [word, ofOpcode?, kind_ofNibbles, n_ofNibbles, x_ofNibbles, y_ofNibbles,
        Alu.ofNibble?_nibble]
  | _ =>
      simp [word, ofOpcode?, ofKeyTest?, ofTransfer?, kind_ofAddress, address_ofAddress,
        kind_ofByte, x_ofByte, byte_ofByte, kind_ofNibbles, x_ofNibbles, y_ofNibbles,
        n_ofNibbles]

section Decoding

variable {op : Opcode} {instruction : Instruction}

theorem word_of_ofSystem? (decoded : ofSystem? op = some instruction) : instruction.word = op := by
  simp only [ofSystem?] at decoded
  split at decoded
  next clears =>
    cases decoded
    exact clears.symm
  next =>
    split at decoded
    next returns =>
      cases decoded
      exact returns.symm
    next => cases decoded

theorem word_of_ofKeyTest? (kind : op.kind = 0xE) (decoded : ofKeyTest? op = some instruction) :
    instruction.word = op := by
  have fields := ofByte_fields op
  rw [kind] at fields
  simp only [ofKeyTest?] at decoded
  repeat' split at decoded
  all_goals cases decoded
  all_goals
    rename_i byte
    rwa [byte] at fields

/-- The words of this family are told apart by their lower byte. -/
theorem word_of_ofTransfer? (kind : op.kind = 0xF) (decoded : ofTransfer? op = some instruction) :
    instruction.word = op := by
  have fields := ofByte_fields op
  rw [kind] at fields
  simp only [ofTransfer?] at decoded
  repeat' split at decoded
  all_goals cases decoded
  all_goals
    rename_i byte
    rwa [byte] at fields

/-- A word is the word of the instruction that it is decoded to, family by family. -/
theorem word_of_ofOpcode? (decoded : ofOpcode? op = some instruction) : instruction.word = op := by
  have address := ofAddress_fields op
  have byte := ofByte_fields op
  have nibbles := ofNibbles_fields op
  simp only [ofOpcode?] at decoded
  split at decoded
  case h_1 => exact word_of_ofSystem? decoded
  case h_15 kind => exact word_of_ofKeyTest? kind decoded
  case h_16 =>
    have kind : op.kind = 0xF := by
      grind
    exact word_of_ofTransfer? kind decoded
  case h_6 kind =>
    split at decoded
    next last =>
      cases decoded
      rwa [kind, last] at nibbles
    next => cases decoded
  case h_9 kind =>
    obtain ⟨operation, selected, rfl⟩ := Option.map_eq_some_iff.mp decoded
    rwa [kind, ← Alu.nibble_of_ofNibble? selected] at nibbles
  case h_10 kind =>
    split at decoded
    next last =>
      cases decoded
      rwa [kind, last] at nibbles
    next => cases decoded
  case h_2 kind | h_3 kind | h_11 kind | h_12 kind =>
    cases decoded
    rw [kind] at address
    exact address
  case h_4 kind | h_5 kind | h_7 kind | h_8 kind | h_13 kind =>
    cases decoded
    rw [kind] at byte
    exact byte
  case h_14 kind =>
    cases decoded
    rwa [kind] at nibbles

end Decoding

/-- A word encodes an instruction exactly if it is the word of that instruction. -/
theorem ofOpcode?_eq_some_iff {op : Opcode} {instruction : Instruction} :
    ofOpcode? op = some instruction ↔ op = instruction.word := by
  constructor
  · exact fun decoded => (word_of_ofOpcode? decoded).symm
  · rintro rfl
    exact ofOpcode?_word instruction

end Instruction

end ChipEight
