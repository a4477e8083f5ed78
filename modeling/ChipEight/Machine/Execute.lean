import ChipEight.Machine
import ChipEight.TwosComplement

/-!
# Running instructions

`Machine.perform` is the meaning of each instruction and `Machine.execute` that of each word.
Every check stands before the first change, so that an instruction that faults changes nothing but
the record of the word that was executed last.  Only a store can fail later: it writes value by
value, and a register that holds no byte stops it there.
-/

namespace ChipEight

/-- The value that an operation leaves in its first register, where `a` and `b` are the values of
the two registers and `shifted` is the one that shifts work on. -/
def Alu.value (operation : Alu) (a b shifted : Int) : Int :=
  match operation with
  | .copy => b
  | .or => TwosComplement.or a b
  | .and => TwosComplement.and a b
  | .xor => TwosComplement.xor a b
  | .add => (a + b) % 256
  | .subtract => (a - b) % 256
  | .shiftRight => shifted / 2
  | .subtractFrom => (b - a) % 256
  | .shiftLeft => 2 * shifted % 256

/-- What an operation leaves in the flag register, if it writes it: a carry, a borrow, the bit that
a shift to the right drops, or the upper bit in its place for a shift to the left. -/
def Alu.flag? (operation : Alu) (a b shifted : Int) : Option Int :=
  match operation with
  | .add => some (if a + b > 255 then 1 else 0)
  | .subtract => some (if a < b then 1 else 0)
  | .subtractFrom => some (if b < a then 1 else 0)
  | .shiftRight => some (shifted % 2)
  | .shiftLeft => some (if shifted / 128 % 2 = 1 then 128 else 0)
  | _ => none

/-- An instruction that is not carried out: the machine as it is left, and why. -/
structure Interrupted where
  machine : Machine
  reason : Interruption
  deriving DecidableEq

namespace Machine

/-- The fault of the instruction that is being executed. -/
def fault (machine : Machine) (cause : FaultCause) : Fault :=
  ⟨cause, some machine.pc, some machine.opcode.toNat⟩

/-- Refuses an access that does not end within memory. -/
def checkMemory (machine : Machine) (start length : Int) : Except Fault Unit :=
  if start + length > memorySize then
    .error (machine.fault (.memoryAccess start length))
  else
    .ok ()

/-- Whether the key with an index is pressed.  An index beyond the sixteenth key is a fault of the
instruction that asks. -/
def keyPressed (machine : Machine) (index : Int) : Except Interruption Bool :=
  if 16 ≤ index then
    .error (.faulted (machine.fault (.noSuchKey index)))
  else
    (machine.keypad.isPressedAt index).mapError .strayed

/-- What an instruction works out, or its interruption, which leaves the machine as it is. -/
def orStay {α : Type} (machine : Machine) (result : Except Interruption α) :
    Except Interrupted α :=
  result.mapError fun reason => ⟨machine, reason⟩

/-- Refuses an instruction whose access does not end within memory. -/
def requireMemory (machine : Machine) (length : Nat) : Except Interrupted Unit :=
  machine.orStay ((machine.checkMemory machine.index length).mapError .faulted)

/-- Goes on to the next instruction. -/
def advance (machine : Machine) : Machine :=
  { machine with pc := machine.pc + 2 }

/-- Goes on to the next instruction, or to the one behind it. -/
def skipIf (machine : Machine) (condition : Bool) : Machine :=
  { machine with pc := machine.pc + if condition then 4 else 2 }

/-- Combines two registers.  The flag is written last, so it stays if the result goes to the same
register. -/
def combine (machine : Machine) (operation : Alu) (x y : Register) : Machine :=
  let a := machine.register x
  let b := machine.register y
  let shifted := if machine.shiftUsesVy then b else a
  let result := machine.setRegister x (operation.value a b shifted)
  match operation.flag? a b shifted with
  | some flag => result.setRegister flagRegister flag
  | none => result

/-- Calls a subroutine: the address of the call itself is pushed. -/
def enter (machine : Machine) (target : Address) : Except Fault Machine :=
  if free : machine.depth.val < stackDepth then
    .ok { machine with
      stack := machine.stack.set machine.depth.val machine.pc free
      depth := ⟨machine.depth.val + 1, Nat.succ_lt_succ free⟩
      pc := target.val }
  else
    .error (machine.fault .stackOverflow)

/-- Returns from a subroutine to the instruction behind its call. -/
def leave (machine : Machine) : Except Fault Machine :=
  match machine.depth with
  | ⟨0, _⟩ => .error (machine.fault .stackUnderflow)
  | ⟨pending + 1, bound⟩ =>
      .ok { machine with
        depth := ⟨pending, Nat.lt_of_succ_lt bound⟩
        pc := machine.stack.get ⟨pending, Nat.lt_of_succ_lt_succ bound⟩ + 2 }

/-- Draws the sprite that the index points at, and leaves the collision in the flag register. -/
def drawSprite (machine : Machine) (x y : Register) (rows : Nat) : Except Interrupted Machine := do
  machine.requireMemory rows
  let sprite := machine.memory.between machine.index rows
  let (display, collision) :=
    machine.display.draw (machine.register x) (machine.register y) sprite
  return { machine with display }.setRegister flagRegister (if collision then 1 else 0)

/-- Stores values one after the other from where the index points.  What was written before one
that cannot be written stays written. -/
def store (machine : Machine) (block : List Int) : Except Interrupted Machine := do
  machine.requireMemory block.length
  match machine.memory.write machine.index block with
  | (memory, .ok ()) => .ok { machine with memory }
  | (memory, .error error) => .error ⟨{ machine with memory }, .strayed error⟩

/-- The bytes of a block to which the index points. -/
def fetchBlock (machine : Machine) (length : Nat) : Except Interrupted (List Byte) := do
  machine.requireMemory length
  machine.orStay ((machine.memory.read machine.index length).mapError .strayed)

/-- The hundreds, tens and units of a value.  Only the hundreds can exceed a digit, or be
negative. -/
def decimalDigits (value : Int) : List Int :=
  [value / 100, value / 10 % 10, value % 10]

def perform (machine : Machine) : Instruction → Except Interrupted Machine
  | .clearScreen => .ok { machine with display := machine.display.clear }.advance
  | .ret => machine.orStay (machine.leave.mapError .faulted)
  | .jump target => .ok { machine with pc := target.val }
  | .call target => machine.orStay ((machine.enter target).mapError .faulted)
  | .skipIfByte x value => .ok (machine.skipIf (machine.register x == value.toNat))
  | .skipUnlessByte x value => .ok (machine.skipIf (machine.register x != value.toNat))
  | .skipIfEqual x y => .ok (machine.skipIf (machine.register x == machine.register y))
  | .loadByte x value => .ok (machine.setRegister x value.toNat).advance
  | .addByte x value =>
      .ok (machine.setRegister x ((machine.register x + value.toNat) % 256)).advance
  | .arithmetic operation x y => .ok (machine.combine operation x y).advance
  | .skipUnlessEqual x y => .ok (machine.skipIf (machine.register x != machine.register y))
  | .loadIndex target => .ok { machine with index := target.val }.advance
  | .jumpOffset base => .ok { machine with pc := base.val + machine.register 0 }
  | .random x mask =>
      .ok ({ machine with random := machine.random.advance }.setRegister x
        (machine.random.next &&& mask).toNat).advance
  | .draw x y rows => do return (← machine.drawSprite x y rows.val).advance
  | .skipIfPressed x => do
      return machine.skipIf (← machine.orStay (machine.keyPressed (machine.register x)))
  | .skipUnlessPressed x => do
      return machine.skipIf !(← machine.orStay (machine.keyPressed (machine.register x)))
  | .readDelay x => .ok (machine.setRegister x machine.delay).advance
  | .awaitKey x => .ok { machine with waiting := true, waitRegister := x }
  | .setDelay x => .ok { machine with delay := machine.register x }.advance
  | .setSound x => .ok { machine with sound := machine.register x }.advance
  | .addIndex x =>
      .ok { machine with index := (machine.index + machine.register x) % 65536 }.advance
  | .loadGlyph x =>
      .ok { machine with index := fontStart + glyphHeight * machine.register x }.advance
  | .storeDecimal x => do return (← machine.store (decimalDigits (machine.register x))).advance
  | .storeRegisters x => do
      let stored ← machine.store (machine.registers.toList.take (x.val + 1))
      return { stored with index := machine.index + (x.val + 1) }.advance
  | .loadRegisters x => do
      let block ← machine.fetchBlock (x.val + 1)
      return { machine with
        registers := overlay machine.registers 0 (block.map fun (byte : Byte) => (byte.toNat : Int))
        index := machine.index + (x.val + 1) }.advance

/-- Executes a word.  One that is no instruction is reported and skipped.  The line that traces the
word is made only for a logger that keeps it. -/
def execute (machine : Machine) (opcode : Opcode) (logger : Logger := .complete) :
    Outcome Machine Interruption Unit :=
  let fetched := { machine with opcode := opcode }
  let trace :=
    if logger.enabled .debug then logger.record (.executing machine.pc opcode) else []
  match Instruction.ofOpcode? opcode with
  | none => ⟨fetched.advance, .ok (), trace ++ logger.record (.unknownOpcode machine.pc opcode)⟩
  | some instruction =>
      match fetched.perform instruction with
      | .ok done => ⟨done, .ok (), trace⟩
      | .error interrupted => ⟨interrupted.machine, .error interrupted.reason, trace⟩

/-- The word at the program counter, where there is room for one. -/
def fetch (machine : Machine) (room : machine.pc < programEnd) : Opcode :=
  have lower : machine.pc.toNat + 1 < memorySize := by
    simp only [programEnd, memorySize] at room ⊢
    omega
  have upper : machine.pc.toNat < memorySize := Nat.lt_of_succ_lt lower
  Opcode.ofBytes (machine.memory.cells[machine.pc.toNat])
    (machine.memory.cells[machine.pc.toNat + 1])

/-- Fetches and executes one instruction, and answers whether the program has ended.  Nothing
happens while the program waits for a key. -/
def cycle (machine : Machine) (logger : Logger := .complete) :
    Outcome Machine Interruption Bool :=
  if room : machine.pc < programEnd then
    if machine.waiting then
      ⟨machine, .ok false, []⟩
    else if machine.pc < programStart then
      ⟨machine, .error (.faulted ⟨.fetchBelowProgram machine.pc, none, none⟩), []⟩
    else
      let executed := machine.execute (machine.fetch room) logger
      ⟨executed.state, executed.answer.map fun _ => false, executed.log⟩
  else
    ⟨machine, .ok true, []⟩

end Machine

end ChipEight
