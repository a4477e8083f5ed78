import ChipEight.Nibble

/-!
# Instructions

An opcode is a word of sixteen bits.  It is read as four nibbles `kxyn`: `k` is the kind, `x` and
`y` name registers, and the lower bits also form the immediate byte `yn` and the address `xyn`.
`Instruction.ofOpcode?` says which words are instructions, and which instruction each of them is.
-/

namespace ChipEight

/-- A cell of memory, or a value that stands in an instruction. -/
abbrev Byte := UInt8

/-- One of the sixteen registers `V0` to `VF`. -/
abbrev Register := Nibble

/-- The register that receives carries, borrows, shifted-out bits and collisions. -/
def flagRegister : Register := 15

/-- An address that an instruction can name. -/
abbrev Address := Fin 4096

/-- Numerals and remainders are read as addresses by this fact. -/
instance address_neZero : @NeZero Nat Zero.ofOfNat0 4096 := ⟨by decide⟩

/-- The word that encodes an instruction. -/
abbrev Opcode := UInt16

namespace Opcode

/-- The word whose upper byte stands at the lower address. -/
def ofBytes (upper lower : Byte) : Opcode :=
  UInt16.ofNat (upper.toNat * 256 + lower.toNat)

/-- The most significant nibble. -/
def kind (op : Opcode) : Nibble :=
  Fin.ofNat 16 (op.toNat / 4096)

/-- The nibble that names the first register. -/
def x (op : Opcode) : Register :=
  Fin.ofNat 16 (op.toNat / 256)

/-- The nibble that names the second register. -/
def y (op : Opcode) : Register :=
  Fin.ofNat 16 (op.toNat / 16)

/-- The least significant nibble. -/
def n (op : Opcode) : Nibble :=
  Fin.ofNat 16 op.toNat

def address (op : Opcode) : Address :=
  Fin.ofNat 4096 op.toNat

def byte (op : Opcode) : Byte :=
  UInt8.ofNat op.toNat

end Opcode

/-- The operations on two registers, in the order of their nibbles. -/
inductive Alu where
  | copy
  | or
  | and
  | xor
  | add
  | subtract
  | shiftRight
  | subtractFrom
  | shiftLeft
  deriving DecidableEq

/-- The operation that the last nibble of an opcode `8xyn` selects. -/
def Alu.ofNibble? (n : Nibble) : Option Alu :=
  match n with
  | 0x0 => some .copy
  | 0x1 => some .or
  | 0x2 => some .and
  | 0x3 => some .xor
  | 0x4 => some .add
  | 0x5 => some .subtract
  | 0x6 => some .shiftRight
  | 0x7 => some .subtractFrom
  | 0xE => some .shiftLeft
  | _ => none

inductive Instruction where
  | clearScreen
  | ret
  | jump (target : Address)
  | call (target : Address)
  | skipIfByte (x : Register) (value : Byte)
  | skipUnlessByte (x : Register) (value : Byte)
  | skipIfEqual (x y : Register)
  | loadByte (x : Register) (value : Byte)
  /-- Add a value to a register, without a carry. -/
  | addByte (x : Register) (value : Byte)
  | arithmetic (operation : Alu) (x y : Register)
  | skipUnlessEqual (x y : Register)
  | loadIndex (target : Address)
  /-- Continue at an address plus `V0`. -/
  | jumpOffset (base : Address)
  /-- Load a random byte under a mask. -/
  | random (x : Register) (mask : Byte)
  | draw (x y : Register) (rows : Nibble)
  /-- Skip the next instruction if the key in a register is pressed. -/
  | skipIfPressed (x : Register)
  /-- Skip the next instruction unless the key in a register is pressed. -/
  | skipUnlessPressed (x : Register)
  | readDelay (x : Register)
  /-- Wait for a key and load its index. -/
  | awaitKey (x : Register)
  | setDelay (x : Register)
  | setSound (x : Register)
  | addIndex (x : Register)
  /-- Point the index at the glyph of a digit. -/
  | loadGlyph (x : Register)
  /-- Store the three decimal digits of a register. -/
  | storeDecimal (x : Register)
  /-- Store the registers up to one of them. -/
  | storeRegisters (x : Register)
  /-- Load the registers up to one of them. -/
  | loadRegisters (x : Register)
  deriving DecidableEq

namespace Instruction

/-- The instructions of kind `0`: of these words only two are instructions. -/
def ofSystem? (op : Opcode) : Option Instruction :=
  if op = 0x00E0 then some .clearScreen
  else if op = 0x00EE then some .ret
  else none

/-- The instructions of kind `E`, which test a key. -/
def ofKeyTest? (op : Opcode) : Option Instruction :=
  if op.byte = 0x9E then some (.skipIfPressed op.x)
  else if op.byte = 0xA1 then some (.skipUnlessPressed op.x)
  else none

/-- The instructions of kind `F`, which move one register to or from the rest of the machine. -/
def ofTransfer? (op : Opcode) : Option Instruction :=
  if op.byte = 0x07 then some (.readDelay op.x)
  else if op.byte = 0x0A then some (.awaitKey op.x)
  else if op.byte = 0x15 then some (.setDelay op.x)
  else if op.byte = 0x18 then some (.setSound op.x)
  else if op.byte = 0x1E then some (.addIndex op.x)
  else if op.byte = 0x29 then some (.loadGlyph op.x)
  else if op.byte = 0x33 then some (.storeDecimal op.x)
  else if op.byte = 0x55 then some (.storeRegisters op.x)
  else if op.byte = 0x65 then some (.loadRegisters op.x)
  else none

/-- The instruction that a word encodes, if it encodes one.  The last case is kind `F`. -/
def ofOpcode? (op : Opcode) : Option Instruction :=
  match op.kind with
  | 0x0 => ofSystem? op
  | 0x1 => some (.jump op.address)
  | 0x2 => some (.call op.address)
  | 0x3 => some (.skipIfByte op.x op.byte)
  | 0x4 => some (.skipUnlessByte op.x op.byte)
  | 0x5 => if op.n = 0 then some (.skipIfEqual op.x op.y) else none
  | 0x6 => some (.loadByte op.x op.byte)
  | 0x7 => some (.addByte op.x op.byte)
  | 0x8 => (Alu.ofNibble? op.n).map (.arithmetic · op.x op.y)
  | 0x9 => if op.n = 0 then some (.skipUnlessEqual op.x op.y) else none
  | 0xA => some (.loadIndex op.address)
  | 0xB => some (.jumpOffset op.address)
  | 0xC => some (.random op.x op.byte)
  | 0xD => some (.draw op.x op.y op.n)
  | 0xE => ofKeyTest? op
  | _ => ofTransfer? op

end Instruction

end ChipEight
