import Mathlib.Data.Int.Bitwise
import ChipEight.Proofs.Instruction.Words
import ChipEight.Proofs.Machine.Execution

/-!
# Arithmetic on two registers

The instructions of kind `8` read both registers, load the result into the first of them and write
the flag last.  Any of the three registers may be the same one: the result and the flag come from
the values before the instruction, and a flag that shares its register with the result replaces it.
-/

namespace ChipEight

/-! ## Bit by bit -/

namespace TwosComplement

theorem without_eq_ldiff (m n : Nat) : without m n = m.ldiff n := by
  apply Nat.eq_of_testBit_eq
  intro position
  rw [testBit_without, Nat.testBit_ldiff]

/-- The union that is computed by cases of the signs is the union of the bits of two integers. -/
theorem or_eq_lor (a b : Int) : or a b = a.lor b := by
  cases a <;> cases b <;> simp only [or, Int.lor, without_eq_ldiff]
  rfl

theorem and_eq_land (a b : Int) : and a b = a.land b := by
  cases a <;> cases b <;> simp only [and, Int.land, without_eq_ldiff] <;> rfl

theorem xor_eq_xor (a b : Int) : xor a b = a.xor b := by
  cases a <;> cases b <;> rfl

end TwosComplement

/-- The bit that leaves a byte to the left says whether the byte lies in its upper half. -/
theorem IsByte.upper_bit {value : Int} (byte : IsByte value) :
    value / 128 % 2 = 1 ↔ 128 ≤ value := by
  obtain ⟨lower, upper⟩ := byte
  constructor <;> intro <;> omega

/-! ## Registers -/

namespace Machine

theorem register_setRegister_eq_update (machine : Machine) (x : Register) (value : Int) :
    (machine.setRegister x value).register = Function.update machine.register x value := by
  funext z
  rw [register_setRegister, Function.update_apply]

/-- The operand of the shifts. -/
def shiftOperand (machine : Machine) (x y : Register) : Int :=
  if machine.shiftUsesVy then machine.register y else machine.register x

section Combine

variable (machine : Machine) (operation : Alu) (x y : Register)

/-- The value of an operation on two registers as they are. -/
def combinedValue : Int :=
  operation.value (machine.register x) (machine.register y) (machine.shiftOperand x y)

def combinedFlag? : Option Int :=
  operation.flag? (machine.register x) (machine.register y) (machine.shiftOperand x y)

theorem register_combine_of_none (silent : machine.combinedFlag? operation x y = none) :
    (machine.combine operation x y).register =
      Function.update machine.register x (machine.combinedValue operation x y) := by
  simp only [combinedFlag?, shiftOperand] at silent
  simp only [combine, silent]
  exact machine.register_setRegister_eq_update x _

/-- The flag is written last, so it wins where the result goes to the same register. -/
theorem register_combine_of_some {flag : Int}
    (written : machine.combinedFlag? operation x y = some flag) :
    (machine.combine operation x y).register =
      Function.update (Function.update machine.register x (machine.combinedValue operation x y))
        flagRegister flag := by
  simp only [combinedFlag?, shiftOperand] at written
  simp only [combine, written]
  rw [register_setRegister_eq_update, register_setRegister_eq_update]
  rfl

/-- An operation touches registers alone. -/
theorem combine_frame : machine.combine operation x y =
    { machine with registers := (machine.combine operation x y).registers } := by
  cases operation <;> rfl

theorem combine_fetched (word : Opcode) : (machine.fetched word).combine operation x y =
    (machine.combine operation x y).fetched word := by
  cases operation <;> rfl

end Combine

/-! ## Words -/

/-- A word is carried out, leaves the registers as given, goes on to the next instruction and
changes nothing else. -/
structure Yields (machine : Machine) (word : Opcode) (registers : Register → Int) : Prop where
  answer : (machine.execute word).answer = .ok ()
  register : (machine.execute word).state.register = registers
  frame : (machine.execute word).state =
    { machine with
      registers := (machine.execute word).state.registers
      pc := machine.pc + 2
      opcode := word }

section Words

variable (machine : Machine) (operation : Alu) (x y : Register)

theorem execute_combine {word : Opcode} (encoded : word = .ofNibbles 0x8 x y operation.nibble) :
    machine.execute word =
      ⟨((machine.combine operation x y).fetched word).advance, .ok (),
        [.executing machine.pc word]⟩ := by
  have decoded : Instruction.ofOpcode? word = some (.arithmetic operation x y) := by
    rw [encoded]
    exact Instruction.ofOpcode?_word (.arithmetic operation x y)
  rw [execute_of_decoded machine decoded, perform, combine_fetched]

theorem yields_combine :
    machine.Yields (.ofNibbles 0x8 x y operation.nibble)
      (machine.combine operation x y).register := by
  have executed := machine.execute_combine operation x y rfl
  refine ⟨by rw [executed], by rw [executed]; rfl, ?_⟩
  rw [executed, combine_frame]
  rfl

theorem yields_value (silent : machine.combinedFlag? operation x y = none) :
    machine.Yields (.ofNibbles 0x8 x y operation.nibble)
      (Function.update machine.register x (machine.combinedValue operation x y)) := by
  rw [← machine.register_combine_of_none operation x y silent]
  exact machine.yields_combine operation x y

theorem yields_flag {flag : Int} (written : machine.combinedFlag? operation x y = some flag) :
    machine.Yields (.ofNibbles 0x8 x y operation.nibble)
      (Function.update (Function.update machine.register x (machine.combinedValue operation x y))
        flagRegister flag) := by
  rw [← machine.register_combine_of_some operation x y written]
  exact machine.yields_combine operation x y

end Words

/-- Every operation on two registers works from their values before it and changes no register but
the first and, if it has a flag, the flag register.  Only the last one needs a byte: for a byte the
upper bit tells whether it is at least 128. -/
theorem arithmetic_of_values_before (machine : Machine) (x y : Register) :
    let a := machine.register x
    let b := machine.register y
    let s := if machine.shiftUsesVy then b else a
    let loaded := Function.update machine.register x
    let flagged := fun value flag : Int => Function.update (loaded value) flagRegister flag
    machine.Yields (.ofNibbles 0x8 x y 0x0) (loaded b) ∧
    machine.Yields (.ofNibbles 0x8 x y 0x1) (loaded (a.lor b)) ∧
    machine.Yields (.ofNibbles 0x8 x y 0x2) (loaded (a.land b)) ∧
    machine.Yields (.ofNibbles 0x8 x y 0x3) (loaded (a.xor b)) ∧
    machine.Yields (.ofNibbles 0x8 x y 0x4)
      (flagged ((a + b) % 256) (if a + b > 255 then 1 else 0)) ∧
    machine.Yields (.ofNibbles 0x8 x y 0x5) (flagged ((a - b) % 256) (if a < b then 1 else 0)) ∧
    machine.Yields (.ofNibbles 0x8 x y 0x7) (flagged ((b - a) % 256) (if b < a then 1 else 0)) ∧
    machine.Yields (.ofNibbles 0x8 x y 0x6) (flagged (s / 2) (s % 2)) ∧
    (IsByte s → machine.Yields (.ofNibbles 0x8 x y 0xE)
      (flagged (2 * s % 256) (if s ≥ 128 then 128 else 0))) := by
  intro a b s loaded flagged
  refine ⟨machine.yields_value .copy x y rfl, ?_, ?_, ?_,
    machine.yields_flag .add x y rfl,
    machine.yields_flag .subtract x y rfl,
    machine.yields_flag .subtractFrom x y rfl,
    machine.yields_flag .shiftRight x y rfl, fun byte => ?_⟩
  · rw [← TwosComplement.or_eq_lor]
    exact machine.yields_value .or x y rfl
  · rw [← TwosComplement.and_eq_land]
    exact machine.yields_value .and x y rfl
  · rw [← TwosComplement.xor_eq_xor]
    exact machine.yields_value .xor x y rfl
  · simp only [ge_iff_le, ← byte.upper_bit]
    exact machine.yields_flag .shiftLeft x y rfl

/-- The flag register is the first operand: it keeps what is not a flag, and else the flag alone. -/
theorem arithmetic_of_values_before_flag :
    let machine := ((powerOn (.whole 600) true (.ofScript [])).setRegister 0 200).setRegister 15 100
    let after := fun n : Nibble => (machine.execute (.ofNibbles 0x8 15 0 n)).state
    IsByte (machine.register 0) ∧ (after 0x1).register flagRegister = 236 ∧
      (after 0x4).register flagRegister = 1 ∧ (after 0x5).register flagRegister = 1 ∧
      (after 0x7).register flagRegister = 0 ∧ (after 0x6).register flagRegister = 0 ∧
      (after 0xE).register flagRegister = 128 ∧ (after 0xE).register 0 = 200 ∧
      (after 0xE).pc = 514 := by
  intro machine after
  have byte : IsByte (machine.register 0) := by decide
  obtain ⟨_, joined, _, _, carried, borrowed, spared, right, left⟩ :=
    arithmetic_of_values_before machine 15 0
  have shifted := left byte
  exact ⟨byte, congrFun joined.register 15, congrFun carried.register 15,
    congrFun borrowed.register 15, congrFun spared.register 15, congrFun right.register 15,
    congrFun shifted.register 15, congrFun shifted.register 0, congrArg Machine.pc shifted.frame⟩

end Machine

end ChipEight
