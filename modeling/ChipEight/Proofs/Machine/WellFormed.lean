import ChipEight.Machine.Execute
import ChipEight.Machine.Load

/-!
# Well-formed machines

The types of a machine admit states that no program reaches: a register that holds no byte, an
index below zero, memory that has grown.  `Machine.WellFormed` excludes them.  The stack enters the
invariant because a return continues behind an address that was stored there.

The state at power-on is well formed, and this module shows that the parts from which every
instruction is put together keep it so.
-/

namespace ChipEight

/-- The numbers that a byte can hold. -/
def IsByte (value : Int) : Prop :=
  0 ≤ value ∧ value ≤ 255

instance (value : Int) : Decidable (IsByte value) :=
  inferInstanceAs (Decidable (_ ∧ _))

namespace IsByte

/-- A byte value is a natural number, for the lemmas that compute with remainders. -/
theorem exists_nat {value : Int} (byte : IsByte value) :
    ∃ n : Nat, n < 256 ∧ value = (n : Int) := by
  obtain ⟨lower, upper⟩ := byte
  exact ⟨value.toNat, by omega, by omega⟩

theorem of_nat {n : Nat} (small : n < 256) : IsByte (n : Int) := by
  constructor <;> omega

theorem of_toNat (byte : Byte) : IsByte (byte.toNat : Int) :=
  of_nat byte.toNat_lt

theorem mod (value : Int) : IsByte (value % 256) := by
  constructor <;> omega

/-- What holds on both branches holds of the choice; the sums and differences of bytes are such
choices. -/
theorem of_ite {condition : Prop} [Decidable condition] {a b : Int}
    (left : IsByte a) (right : IsByte b) : IsByte (if condition then a else b) := by
  split
  · exact left
  · exact right

/-- A timer does not fall below zero. -/
theorem countDown {timer : Int} (byte : IsByte timer) : IsByte (Machine.countDown timer) := by
  obtain ⟨lower, upper⟩ := byte
  simp only [Machine.countDown]
  split <;> constructor <;> omega

/-- The bits of a union lie below the bits of its parts. -/
theorem or {a b : Int} (left : IsByte a) (right : IsByte b) :
    IsByte (TwosComplement.or a b) := by
  obtain ⟨m, mBound, rfl⟩ := left.exists_nat
  obtain ⟨n, nBound, rfl⟩ := right.exists_nat
  have small := Nat.or_lt_two_pow (n := 8) mBound nBound
  exact of_nat small

theorem and {a b : Int} (left : IsByte a) (right : IsByte b) :
    IsByte (TwosComplement.and a b) := by
  obtain ⟨m, mBound, rfl⟩ := left.exists_nat
  obtain ⟨n, nBound, rfl⟩ := right.exists_nat
  have small := Nat.and_lt_two_pow (n := 8) m nBound
  exact of_nat small

theorem xor {a b : Int} (left : IsByte a) (right : IsByte b) :
    IsByte (TwosComplement.xor a b) := by
  obtain ⟨m, mBound, rfl⟩ := left.exists_nat
  obtain ⟨n, nBound, rfl⟩ := right.exists_nat
  have small := Nat.xor_lt_two_pow (n := 8) mBound nBound
  exact of_nat small

end IsByte

/-! ## Values of the arithmetic instructions -/

/-- A result is reduced or is made of the bits of its operands. -/
theorem Alu.value_isByte (operation : Alu) {a b shifted : Int}
    (left : IsByte a) (right : IsByte b) (source : IsByte shifted) :
    IsByte (operation.value a b shifted) := by
  cases operation with
  | copy => exact right
  | or => exact left.or right
  | and => exact left.and right
  | xor => exact left.xor right
  | add => exact IsByte.mod _
  | subtract => exact IsByte.mod _
  | shiftRight =>
      obtain ⟨lower, upper⟩ := source
      simp only [Alu.value]
      constructor <;> omega
  | subtractFrom => exact IsByte.mod _
  | shiftLeft => exact IsByte.mod _

/-- The flag of an operation is a bit. -/
theorem Alu.flag_isByte (operation : Alu) {a b shifted flag : Int}
    (written : operation.flag? a b shifted = some flag) : IsByte flag := by
  cases operation <;> simp only [Alu.flag?, Option.some.injEq, reduceCtorEq] at written <;>
    subst written
  case add => exact IsByte.of_ite (by decide) (by decide)
  case subtract => exact IsByte.of_ite (by decide) (by decide)
  case shiftRight => constructor <;> omega
  case subtractFrom => exact IsByte.of_ite (by decide) (by decide)
  case shiftLeft => exact IsByte.of_ite (by decide) (by decide)

/-- Three digits of a byte are bytes themselves, so they can be stored. -/
theorem Machine.decimalDigits_isByte {value : Int} (byte : IsByte value) :
    ∀ digit ∈ decimalDigits value, IsByte digit := by
  obtain ⟨lower, upper⟩ := byte
  intro digit member
  simp only [decimalDigits, List.mem_cons, List.not_mem_nil, or_false] at member
  rcases member with rfl | rfl | rfl <;> constructor <;> omega

/-! ## The invariant -/

namespace Machine

/-- What holds of every machine that was switched on and then only operated.  The slots above the
pending calls are included, since older calls left them. -/
structure WellFormed (machine : Machine) : Prop where
  surplus : machine.memory.surplus = []
  registers : ∀ x, IsByte (machine.register x)
  index_nonneg : 0 ≤ machine.index
  index_le : machine.index ≤ 0xFFFF
  pc : 0 ≤ machine.pc
  stack : ∀ slot : Fin stackDepth, 0 ≤ machine.stack[slot]
  delay : IsByte machine.delay
  sound : IsByte machine.sound

theorem powerOn_wellFormed (clock : Hertz) (shiftUsesVy : Bool) (random : ByteSource) :
    (powerOn clock shiftUsesVy random).WellFormed where
  surplus := rfl
  registers x := by simp [powerOn, register, IsByte]
  index_nonneg := by simp [powerOn]
  index_le := by simp [powerOn]
  pc := by simp [powerOn, programStart]
  stack slot := by simp [powerOn]
  delay := by simp [powerOn, IsByte]
  sound := by simp [powerOn, IsByte]

theorem reset_wellFormed (machine : Machine) : machine.reset.WellFormed :=
  powerOn_wellFormed machine.clock machine.shiftUsesVy machine.random

namespace WellFormed

variable {machine : Machine}

theorem jump (valid : machine.WellFormed) {target : Int} (inside : 0 ≤ target) :
    { machine with pc := target }.WellFormed :=
  { valid with pc := inside }

theorem advance (valid : machine.WellFormed) : machine.advance.WellFormed :=
  valid.jump (Int.add_nonneg valid.pc (by decide))

/-- A skip advances twice or once. -/
theorem skipIf (valid : machine.WellFormed) (condition : Bool) :
    (machine.skipIf condition).WellFormed := by
  apply valid.jump
  have here := valid.pc
  split <;> omega

theorem setRegister (valid : machine.WellFormed) (x : Register) {value : Int}
    (byte : IsByte value) : (machine.setRegister x value).WellFormed :=
  { valid with
    registers := by
      intro other
      rw [register_setRegister]
      exact IsByte.of_ite byte (valid.registers other) }

theorem setIndex (valid : machine.WellFormed) {index : Int} (nonneg : 0 ≤ index)
    (bound : index ≤ 0xFFFF) : { machine with index := index }.WellFormed :=
  { valid with index_nonneg := nonneg, index_le := bound }

theorem overlayMemory (valid : machine.WellFormed) (cells : Vector Byte memorySize) :
    { machine with memory := { machine.memory with cells := cells } }.WellFormed :=
  { valid with surplus := valid.surplus }

/-- What is read from memory are bytes, whatever register they go to. -/
theorem loadBlock (valid : machine.WellFormed) (block : List Byte) :
    { machine with
      registers := overlay machine.registers 0
        (block.map fun (byte : Byte) => (byte.toNat : Int)) }.WellFormed :=
  { valid with
    registers := by
      intro x
      simp only [register, Fin.getElem_fin, getElem_overlay]
      split
      · rw [List.getElem_map]
        exact IsByte.of_toNat _
      · exact valid.registers x }

theorem setDisplay (valid : machine.WellFormed) (display : Display) :
    { machine with display := display }.WellFormed :=
  { valid with surplus := valid.surplus }

theorem setKey (valid : machine.WellFormed) (key : Key) (pressed : Bool) :
    (machine.setKey key pressed).WellFormed :=
  { valid with surplus := valid.surplus }

theorem setRandom (valid : machine.WellFormed) (random : ByteSource) :
    { machine with random := random }.WellFormed :=
  { valid with surplus := valid.surplus }

theorem await (valid : machine.WellFormed) (x : Register) :
    { machine with waiting := true, waitRegister := x }.WellFormed :=
  { valid with surplus := valid.surplus }

theorem setDelay (valid : machine.WellFormed) {ticks : Int} (byte : IsByte ticks) :
    { machine with delay := ticks }.WellFormed :=
  { valid with delay := byte }

theorem setSound (valid : machine.WellFormed) {ticks : Int} (byte : IsByte ticks) :
    { machine with sound := ticks }.WellFormed :=
  { valid with sound := byte }

theorem tickTimers (valid : machine.WellFormed) : machine.tickTimers.WellFormed :=
  { valid with
    delay := valid.delay.countDown
    sound := valid.sound.countDown }

theorem combine (valid : machine.WellFormed) (operation : Alu) (x y : Register) :
    (machine.combine operation x y).WellFormed := by
  have left := valid.registers x
  have right := valid.registers y
  have source : IsByte (if machine.shiftUsesVy then machine.register y else machine.register x) :=
    IsByte.of_ite right left
  have result := valid.setRegister x (operation.value_isByte left right source)
  simp only [Machine.combine]
  split
  next flag written => exact result.setRegister flagRegister (operation.flag_isByte written)
  next => exact result

/-- The index of a key is reduced to a byte before it is put into the register that waits for it. -/
theorem endWait (valid : machine.WellFormed) (index : Int) :
    (machine.endWait index).1.WellFormed := by
  rw [Machine.endWait]
  split
  · have loaded := valid.setRegister machine.waitRegister (IsByte.mod index)
    exact { loaded with pc := valid.advance.pc }
  · exact valid

/-- A program that is loaded at an address leaves memory at its size. -/
theorem load (valid : machine.WellFormed) (program : List Byte) :
    (machine.load program).state.WellFormed := by
  rw [Machine.load]
  split
  next fits =>
    have inside : 0 ≤ machine.pc ∧ machine.pc + program.length ≤ memorySize :=
      ⟨valid.pc, fits⟩
    simp only [Memory.replace, if_pos inside]
    exact valid.overlayMemory _
  next => exact valid

end WellFormed

end Machine

end ChipEight
