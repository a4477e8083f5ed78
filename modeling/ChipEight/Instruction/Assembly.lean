import ChipEight.Instruction
import ChipEight.Text.Hexadecimal

/-!
# Assembler notation

A word is written as a line: a mnemonic and its operands.  Numbers are upper-case hexadecimal: one
digit for a register or a count of rows, two for a byte, three for an address.  A word that is no
instruction is written `???`.  Lines are read off the words themselves, beside the decoder that
runs them.
-/

namespace ChipEight

open Text

/-- What a line starts with.  Loads share one mnemonic, and so do jumps, skips and additions. -/
inductive Mnemonic where
  | cls
  | ret
  | jp
  | call
  | se
  | sne
  | ld
  | add
  | or
  | and
  | xor
  | sub
  | shr
  | subn
  | shl
  | rnd
  | drw
  | skp
  | sknp
  deriving DecidableEq

def Mnemonic.text : Mnemonic → String
  | .cls => "CLS"
  | .ret => "RET"
  | .jp => "JP"
  | .call => "CALL"
  | .se => "SE"
  | .sne => "SNE"
  | .ld => "LD"
  | .add => "ADD"
  | .or => "OR"
  | .and => "AND"
  | .xor => "XOR"
  | .sub => "SUB"
  | .shr => "SHR"
  | .subn => "SUBN"
  | .shl => "SHL"
  | .rnd => "RND"
  | .drw => "DRW"
  | .skp => "SKP"
  | .sknp => "SKNP"

/-- What may stand behind a mnemonic. -/
inductive Operand where
  | register (x : Register)
  | byte (value : Byte)
  | address (target : Address)
  | rows (count : Nibble)
  | index
  | atIndex
  | delayTimer
  | soundTimer
  | key
  | glyph
  | decimal
  deriving DecidableEq

/-- The written form of an operand. -/
def Operand.text : Operand → String
  | .register x => "V" ++ hexNumeral .upper 1 x.val
  | .byte value => hexNumeral .upper 2 value.toNat
  | .address target => hexNumeral .upper 3 target.val
  | .rows count => hexNumeral .upper 1 count.val
  | .index => "I"
  | .atIndex => "[I]"
  | .delayTimer => "DT"
  | .soundTimer => "ST"
  | .key => "K"
  | .glyph => "F"
  | .decimal => "B"

/-- A mnemonic and its operands, the destination first. -/
@[ext]
structure Line where
  mnemonic : Mnemonic
  operands : List Operand
  deriving DecidableEq

def Line.text (line : Line) : String :=
  match line.operands with
  | [] => line.mnemonic.text
  | operands => line.mnemonic.text ++ " " ++ ", ".intercalate (operands.map Operand.text)

namespace Opcode

/-- The mnemonic of an operation on two registers, by its last nibble. -/
def aluMnemonic? (n : Nibble) : Option Mnemonic :=
  match n with
  | 0x0 => some .ld
  | 0x1 => some .or
  | 0x2 => some .and
  | 0x3 => some .xor
  | 0x4 => some .add
  | 0x5 => some .sub
  | 0x6 => some .shr
  | 0x7 => some .subn
  | 0xE => some .shl
  | _ => none

/-- The line of a word of kind `F`, by its lower byte. -/
def transferLine? (op : Opcode) : Option Line :=
  if op.byte = 0x07 then some ⟨.ld, [.register op.x, .delayTimer]⟩
  else if op.byte = 0x0A then some ⟨.ld, [.register op.x, .key]⟩
  else if op.byte = 0x15 then some ⟨.ld, [.delayTimer, .register op.x]⟩
  else if op.byte = 0x18 then some ⟨.ld, [.soundTimer, .register op.x]⟩
  else if op.byte = 0x1E then some ⟨.add, [.index, .register op.x]⟩
  else if op.byte = 0x29 then some ⟨.ld, [.glyph, .register op.x]⟩
  else if op.byte = 0x33 then some ⟨.ld, [.decimal, .register op.x]⟩
  else if op.byte = 0x55 then some ⟨.ld, [.atIndex, .register op.x]⟩
  else if op.byte = 0x65 then some ⟨.ld, [.register op.x, .atIndex]⟩
  else none

/-- The line of a word, unless it is no instruction. -/
def line? (op : Opcode) : Option Line :=
  if op = 0x00E0 then some ⟨.cls, []⟩
  else if op = 0x00EE then some ⟨.ret, []⟩
  else if op.kind = 0x1 then some ⟨.jp, [.address op.address]⟩
  else if op.kind = 0x2 then some ⟨.call, [.address op.address]⟩
  else if op.kind = 0x3 then some ⟨.se, [.register op.x, .byte op.byte]⟩
  else if op.kind = 0x4 then some ⟨.sne, [.register op.x, .byte op.byte]⟩
  else if op.kind = 0x5 ∧ op.n = 0x0 then some ⟨.se, [.register op.x, .register op.y]⟩
  else if op.kind = 0x6 then some ⟨.ld, [.register op.x, .byte op.byte]⟩
  else if op.kind = 0x7 then some ⟨.add, [.register op.x, .byte op.byte]⟩
  else if op.kind = 0x8 then
    (aluMnemonic? op.n).map fun mnemonic => ⟨mnemonic, [.register op.x, .register op.y]⟩
  else if op.kind = 0x9 ∧ op.n = 0x0 then some ⟨.sne, [.register op.x, .register op.y]⟩
  else if op.kind = 0xA then some ⟨.ld, [.index, .address op.address]⟩
  else if op.kind = 0xB then some ⟨.jp, [.register 0, .address op.address]⟩
  else if op.kind = 0xC then some ⟨.rnd, [.register op.x, .byte op.byte]⟩
  else if op.kind = 0xD then
    some ⟨.drw, [.register op.x, .register op.y, .rows op.n]⟩
  else if op.kind = 0xE ∧ op.byte = 0x9E then some ⟨.skp, [.register op.x]⟩
  else if op.kind = 0xE ∧ op.byte = 0xA1 then some ⟨.sknp, [.register op.x]⟩
  else if op.kind = 0xF then transferLine? op
  else none

/-- The written form of a word. -/
def mnemonic (op : Opcode) : String :=
  match op.line? with
  | some line => line.text
  | none => "???"

end Opcode

end ChipEight
