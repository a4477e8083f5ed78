import ChipEight.Proofs.Instruction.Lines
import ChipEight.Proofs.Instruction.Words
import ChipEight.Proofs.Machine.Execution
import Mathlib.Data.Fintype.Basic
import Mathlib.Tactic.FinCases

/-!
# Disassembly and execution

The lines of words are read off beside the decoder that runs them.  Both agree: a word is written
`???` exactly if it is no instruction, and otherwise its line is that of the instruction which it
runs.  Since the line of an instruction can be read back, what a word does can be told from how it
is written.
-/

namespace ChipEight

open Text

/-! ## Lines of instructions -/

def Alu.mnemonic : Alu → Mnemonic
  | .copy => .ld
  | .or => .or
  | .and => .and
  | .xor => .xor
  | .add => .add
  | .subtract => .sub
  | .shiftRight => .shr
  | .subtractFrom => .subn
  | .shiftLeft => .shl

namespace Instruction

/-- The line of an instruction. -/
def line : Instruction → Line
  | .clearScreen => ⟨.cls, []⟩
  | .ret => ⟨.ret, []⟩
  | .jump target => ⟨.jp, [.address target]⟩
  | .call target => ⟨.call, [.address target]⟩
  | .skipIfByte x value => ⟨.se, [.register x, .byte value]⟩
  | .skipUnlessByte x value => ⟨.sne, [.register x, .byte value]⟩
  | .skipIfEqual x y => ⟨.se, [.register x, .register y]⟩
  | .loadByte x value => ⟨.ld, [.register x, .byte value]⟩
  | .addByte x value => ⟨.add, [.register x, .byte value]⟩
  | .arithmetic operation x y => ⟨operation.mnemonic, [.register x, .register y]⟩
  | .skipUnlessEqual x y => ⟨.sne, [.register x, .register y]⟩
  | .loadIndex target => ⟨.ld, [.index, .address target]⟩
  | .jumpOffset base => ⟨.jp, [.register 0, .address base]⟩
  | .random x mask => ⟨.rnd, [.register x, .byte mask]⟩
  | .draw x y rows => ⟨.drw, [.register x, .register y, .rows rows]⟩
  | .skipIfPressed x => ⟨.skp, [.register x]⟩
  | .skipUnlessPressed x => ⟨.sknp, [.register x]⟩
  | .readDelay x => ⟨.ld, [.register x, .delayTimer]⟩
  | .awaitKey x => ⟨.ld, [.register x, .key]⟩
  | .setDelay x => ⟨.ld, [.delayTimer, .register x]⟩
  | .setSound x => ⟨.ld, [.soundTimer, .register x]⟩
  | .addIndex x => ⟨.add, [.index, .register x]⟩
  | .loadGlyph x => ⟨.ld, [.glyph, .register x]⟩
  | .storeDecimal x => ⟨.ld, [.decimal, .register x]⟩
  | .storeRegisters x => ⟨.ld, [.atIndex, .register x]⟩
  | .loadRegisters x => ⟨.ld, [.register x, .atIndex]⟩

/-- The instruction of a line. -/
def ofLine? : Line → Option Instruction
  | ⟨.cls, []⟩ => some .clearScreen
  | ⟨.ret, []⟩ => some .ret
  | ⟨.jp, [.address target]⟩ => some (.jump target)
  | ⟨.jp, [.register _, .address base]⟩ => some (.jumpOffset base)
  | ⟨.call, [.address target]⟩ => some (.call target)
  | ⟨.se, [.register x, .byte value]⟩ => some (.skipIfByte x value)
  | ⟨.se, [.register x, .register y]⟩ => some (.skipIfEqual x y)
  | ⟨.sne, [.register x, .byte value]⟩ => some (.skipUnlessByte x value)
  | ⟨.sne, [.register x, .register y]⟩ => some (.skipUnlessEqual x y)
  | ⟨.ld, [.register x, .byte value]⟩ => some (.loadByte x value)
  | ⟨.ld, [.register x, .register y]⟩ => some (.arithmetic .copy x y)
  | ⟨.ld, [.index, .address target]⟩ => some (.loadIndex target)
  | ⟨.ld, [.register x, .delayTimer]⟩ => some (.readDelay x)
  | ⟨.ld, [.register x, .key]⟩ => some (.awaitKey x)
  | ⟨.ld, [.delayTimer, .register x]⟩ => some (.setDelay x)
  | ⟨.ld, [.soundTimer, .register x]⟩ => some (.setSound x)
  | ⟨.ld, [.glyph, .register x]⟩ => some (.loadGlyph x)
  | ⟨.ld, [.decimal, .register x]⟩ => some (.storeDecimal x)
  | ⟨.ld, [.atIndex, .register x]⟩ => some (.storeRegisters x)
  | ⟨.ld, [.register x, .atIndex]⟩ => some (.loadRegisters x)
  | ⟨.add, [.register x, .byte value]⟩ => some (.addByte x value)
  | ⟨.add, [.register x, .register y]⟩ => some (.arithmetic .add x y)
  | ⟨.add, [.index, .register x]⟩ => some (.addIndex x)
  | ⟨.or, [.register x, .register y]⟩ => some (.arithmetic .or x y)
  | ⟨.and, [.register x, .register y]⟩ => some (.arithmetic .and x y)
  | ⟨.xor, [.register x, .register y]⟩ => some (.arithmetic .xor x y)
  | ⟨.sub, [.register x, .register y]⟩ => some (.arithmetic .subtract x y)
  | ⟨.shr, [.register x, .register y]⟩ => some (.arithmetic .shiftRight x y)
  | ⟨.subn, [.register x, .register y]⟩ => some (.arithmetic .subtractFrom x y)
  | ⟨.shl, [.register x, .register y]⟩ => some (.arithmetic .shiftLeft x y)
  | ⟨.rnd, [.register x, .byte mask]⟩ => some (.random x mask)
  | ⟨.drw, [.register x, .register y, .rows rows]⟩ => some (.draw x y rows)
  | ⟨.skp, [.register x]⟩ => some (.skipIfPressed x)
  | ⟨.sknp, [.register x]⟩ => some (.skipUnlessPressed x)
  | _ => none

theorem ofLine?_line (instruction : Instruction) : ofLine? instruction.line = some instruction := by
  cases instruction with
  | arithmetic operation x y => cases operation <;> rfl
  | _ => rfl

/-- Only the line of a draw has a count of rows. -/
theorem line_operands_plain {instruction : Instruction} (other : instruction.line.mnemonic ≠ .drw) :
    ∀ operand ∈ instruction.line.operands, ∀ count, operand ≠ .rows count := by
  cases instruction with
  | draw x y rows => exact absurd rfl other
  | _ => simp [line]

theorem eq_draw_of_line {instruction : Instruction} (draws : instruction.line.mnemonic = .drw) :
    ∃ x y rows, instruction = .draw x y rows := by
  cases instruction with
  | draw x y rows => exact ⟨x, y, rows, rfl⟩
  | arithmetic operation x y => cases operation <;> cases draws
  | _ => cases draws

/-- Instructions that are written alike are the same. -/
theorem text_line_injective :
    Function.Injective fun instruction : Instruction => instruction.line.text := by
  intro first second same
  obtain ⟨mnemonics, chars⟩ := Line.alike_of_text_eq same
  have operands : first.line.operands = second.line.operands := by
    by_cases draws : first.line.mnemonic = .drw
    · obtain ⟨x, y, rows, rfl⟩ := eq_draw_of_line draws
      obtain ⟨x', y', rows', rfl⟩ := eq_draw_of_line (mnemonics.symm.trans draws)
      simpa [line, Operand.chars_register, Operand.chars_rows, digit_injective.eq_iff] using chars
    · have read {instruction : Instruction} (other : instruction.line.mnemonic ≠ .drw) :
          (instruction.line.operands.map Operand.chars).map Operand.read? =
            instruction.line.operands.map some := by
        rw [List.map_map]
        exact List.map_congr_left fun operand member =>
          Operand.read?_chars (line_operands_plain other operand member)
      have others : second.line.mnemonic ≠ .drw := mnemonics ▸ draws
      apply (List.map_injective_iff.mpr fun _ _ => Option.some.inj)
      rw [← read draws, ← read others, chars]
  have lines : first.line = second.line := Line.ext mnemonics operands
  have read := ofLine?_line first
  rw [lines, ofLine?_line second] at read
  exact (Option.some.inj read).symm

theorem text_line_ne_unknown (instruction : Instruction) : instruction.line.text ≠ "???" := by
  intro same
  have words := instruction.line.splitOn_text
  rw [same] at words
  have unknown : instruction.line.mnemonic.text.toList = "???".toList :=
    (List.cons.inj words).1.symm
  have named : ∀ mnemonic : Mnemonic, mnemonic.text.toList ≠ "???".toList := by
    intro mnemonic
    cases mnemonic <;> decide
  exact named _ unknown

end Instruction

/-! ## Lines of words -/

namespace Opcode

theorem aluMnemonic?_eq (n : Nibble) : aluMnemonic? n = (Alu.ofNibble? n).map Alu.mnemonic := by
  revert n
  decide

theorem transferLine?_eq (op : Opcode) :
    op.transferLine? = (Instruction.ofTransfer? op).map Instruction.line := by
  simp only [transferLine?, Instruction.ofTransfer?]
  repeat' split
  all_goals rfl

/-- The line of a word is that of the instruction which it encodes. -/
theorem line?_eq (op : Opcode) : op.line? = (Instruction.ofOpcode? op).map Instruction.line := by
  by_cases clears : op = 0x00E0
  · subst clears
    rfl
  by_cases returns : op = 0x00EE
  · subst returns
    rfl
  rw [line?, if_neg clears, if_neg returns, Instruction.ofOpcode?, Instruction.ofSystem?,
    if_neg clears, if_neg returns, transferLine?_eq, aluMnemonic?_eq]
  generalize op.kind = kind
  -- Of most words the kind selects the line; operations and tests of keys look further.
  fin_cases kind <;> simp [Instruction.ofKeyTest?, Instruction.line]
  · rfl
  · repeat' split
    all_goals rfl

variable {op other : Opcode}

theorem mnemonic_of_decoded {instruction : Instruction}
    (decoded : Instruction.ofOpcode? op = some instruction) :
    op.mnemonic = instruction.line.text := by
  rw [mnemonic, line?_eq, decoded]
  rfl

theorem mnemonic_of_unknown (unknown : Instruction.ofOpcode? op = none) : op.mnemonic = "???" := by
  rw [mnemonic, line?_eq, unknown]
  rfl

theorem mnemonic_eq_unknown_iff : op.mnemonic = "???" ↔ Instruction.ofOpcode? op = none := by
  constructor
  · intro written
    cases decoded : Instruction.ofOpcode? op with
    | none => rfl
    | some instruction =>
        rw [mnemonic_of_decoded decoded] at written
        exact absurd written instruction.text_line_ne_unknown
  · exact mnemonic_of_unknown

/-- Words that are written alike encode the same instruction, or none. -/
theorem ofOpcode?_eq_of_mnemonic_eq (same : op.mnemonic = other.mnemonic) :
    Instruction.ofOpcode? op = Instruction.ofOpcode? other := by
  cases decoded : Instruction.ofOpcode? op with
  | none =>
      have written := mnemonic_of_unknown decoded
      rw [same] at written
      exact (mnemonic_eq_unknown_iff.mp written).symm
  | some instruction =>
      cases otherDecoded : Instruction.ofOpcode? other with
      | none =>
          have written := mnemonic_of_unknown otherDecoded
          rw [← same] at written
          rw [mnemonic_eq_unknown_iff.mp written] at decoded
          cases decoded
      | some otherInstruction =>
          rw [mnemonic_of_decoded decoded, mnemonic_of_decoded otherDecoded] at same
          exact congrArg some (Instruction.text_line_injective same)

theorem eq_of_mnemonic_eq (same : op.mnemonic = other.mnemonic) (known : op.mnemonic ≠ "???") :
    op = other := by
  obtain ⟨instruction, decoded⟩ := Option.ne_none_iff_exists'.mp (mt mnemonic_of_unknown known)
  have otherDecoded := (ofOpcode?_eq_of_mnemonic_eq same).symm.trans decoded
  rw [Instruction.ofOpcode?_eq_some_iff.mp decoded,
    Instruction.ofOpcode?_eq_some_iff.mp otherDecoded]

end Opcode

/-! ## Execution -/

namespace Machine

/-- A word is reported to be no instruction exactly if it is written so. -/
theorem warning_iff_unknown (machine : Machine) (op : Opcode) :
    (∃ event ∈ (machine.execute op).log, event.level = .warning ∧
      event.text = "Not implemented opcode " ++ hexNumeral .upper 4 op.toNat ++ " at " ++
        hexNumeral .upper 4 machine.pc) ↔ op.mnemonic = "???" := by
  rw [Opcode.mnemonic_eq_unknown_iff]
  cases decoded : Instruction.ofOpcode? op with
  | none =>
      have reported : LogEvent.unknownOpcode machine.pc op ∈ (machine.execute op).log := by
        rw [execute_of_unknown machine decoded]
        exact List.mem_cons_of_mem _ List.mem_cons_self
      exact iff_of_true ⟨_, reported, rfl, rfl⟩ rfl
  | some instruction =>
      have traced : (machine.execute op).log = [.executing machine.pc op] := by
        rw [execute_of_decoded machine decoded]
        split <;> rfl
      rw [traced]
      refine iff_of_false ?_ nofun
      rintro ⟨event, member, warning, _⟩
      rw [List.mem_singleton.mp member] at warning
      cases warning

/-- How a word is written tells what it does.  It is written `???` exactly if executing it warns
that it is no instruction, and it then is skipped.  Words that are written alike leave the same
answer and the same machine but for the record of the word, and only words that are no instructions
share how they are written. -/
theorem mnemonic_tells_behaviour (machine : Machine) :
    (∀ op : Opcode,
      ((∃ event ∈ (machine.execute op).log, event.level = .warning ∧
        event.text = "Not implemented opcode " ++ hexNumeral .upper 4 op.toNat ++ " at " ++
          hexNumeral .upper 4 machine.pc) ↔ op.mnemonic = "???") ∧
      (op.mnemonic = "???" → (machine.execute op).answer = .ok () ∧
        (machine.execute op).state = { machine with opcode := op, pc := machine.pc + 2 })) ∧
    ∀ a b : Opcode, a.mnemonic = b.mnemonic →
      (machine.execute a).answer = (machine.execute b).answer ∧
      (machine.execute b).state =
        { (machine.execute a).state with opcode := (machine.execute b).state.opcode } ∧
      (a.mnemonic ≠ "???" → a = b) := by
  constructor
  · intro op
    refine ⟨machine.warning_iff_unknown op, fun unknown => ?_⟩
    rw [execute_of_unknown machine (Opcode.mnemonic_eq_unknown_iff.mp unknown)]
    exact ⟨rfl, rfl⟩
  · intro a b same
    by_cases unknown : a.mnemonic = "???"
    · have other := Opcode.mnemonic_eq_unknown_iff.mp (same.symm.trans unknown)
      rw [execute_of_unknown machine (Opcode.mnemonic_eq_unknown_iff.mp unknown),
        execute_of_unknown machine other]
      exact ⟨rfl, rfl, fun known => absurd unknown known⟩
    · obtain rfl := Opcode.eq_of_mnemonic_eq same unknown
      exact ⟨rfl, rfl, fun _ => rfl⟩

/-- Two words that are no instructions do the same. -/
theorem mnemonic_tells_behaviour_unknown :
    let machine := powerOn (.whole 600) false (.ofScript [])
    (0x8008 : Opcode).mnemonic = "???" ∧ (0xF0FF : Opcode).mnemonic = "???" ∧
      (machine.execute 0x8008).answer = (machine.execute 0xF0FF).answer ∧
      (machine.execute 0xF0FF).state = { machine with opcode := 0xF0FF, pc := 0x202 } ∧
      (0xF20A : Opcode).mnemonic = "LD V2, K" ∧
      ∀ other : Opcode, other.mnemonic = "LD V2, K" → other = 0xF20A := by
  intro machine
  have first : (0x8008 : Opcode).mnemonic = "???" := by decide
  have second : (0xF0FF : Opcode).mnemonic = "???" := by decide
  have waits : (0xF20A : Opcode).mnemonic = "LD V2, K" := by decide +kernel
  obtain ⟨each, alike⟩ := mnemonic_tells_behaviour machine
  obtain ⟨answers, _, _⟩ := alike 0x8008 0xF0FF (first.trans second.symm)
  refine ⟨first, second, answers, ((each 0xF0FF).2 second).2, waits, fun other written => ?_⟩
  have known : other.mnemonic ≠ "???" := by
    rw [written]
    decide
  exact (alike other 0xF20A (written.trans waits.symm)).2.2 known

end Machine

end ChipEight
