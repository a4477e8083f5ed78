import ChipEight.Machine.Operation
import ChipEight.Proofs.Machine.Execution

/-!
# Histories of a machine

A history is a list of requests to a machine that was just switched on.  Requests that are refused
belong to it: they leave the machine as their refusal does.  `representation_after` says that after
every history the fields of the machine are in their ranges, so that from there on words and cycles
fail by faults only.
-/

namespace ChipEight.Machine

/-- The machine after some requests, carried out or refused. -/
def after (machine : Machine) (operations : List Operation) : Machine :=
  operations.foldl (fun reached operation => (reached.apply operation).state) machine

theorem WellFormed.setKeyAt {machine changed : Machine} (valid : machine.WellFormed) {index : Int}
    {pressed : Bool} (set : machine.setKeyAt index pressed = .ok changed) :
    changed.WellFormed := by
  simp only [Machine.setKeyAt] at set
  cases named : Key.ofIndex index with
  | error error => simp [named, Except.map] at set
  | ok key =>
      simp only [named, Except.map, Except.ok.injEq] at set
      subst set
      exact valid.setKey key pressed

/-- Every operation keeps a machine well-formed, refused ones included. -/
theorem WellFormed.apply {machine : Machine} (valid : machine.WellFormed)
    (operation : Operation) : (machine.apply operation).state.WellFormed := by
  cases operation with
  | execute opcode => exact (execute_executed valid opcode).wellFormed valid
  | cycle => exact valid.cycle
  | tickTimers => exact valid.tickTimers
  | load program => exact valid.load program
  | reset => exact machine.reset_wellFormed
  | endWait index => exact valid.endWait index
  | setKey index pressed =>
      simp only [Machine.apply]
      cases set : machine.setKeyAt index pressed with
      | ok changed => exact valid.setKeyAt set
      | error error => exact valid
  | setShiftMode usesVy => exact { valid with surplus := valid.surplus }
  | draw x y sprite => exact valid.setDisplay _

theorem WellFormed.after {machine : Machine} (valid : machine.WellFormed)
    (operations : List Operation) : (machine.after operations).WellFormed := by
  induction operations generalizing machine with
  | nil => exact valid
  | cons operation operations inductionHypothesis =>
      exact inductionHypothesis (valid.apply operation)

/-- The ranges of the fields of a machine. -/
structure Representation (machine : Machine) : Prop where
  memory : machine.memory.bytes.length = 4096
  registerCount : machine.registers.toList.length = 16
  registers : ∀ value ∈ machine.registers.toList, 0 ≤ value ∧ value ≤ 255
  stack : machine.stack.toList.length = 16
  depth : 0 ≤ machine.depth.val ∧ machine.depth.val ≤ 16
  index : 0 ≤ machine.index ∧ machine.index ≤ 0xFFFF
  pc : 0 ≤ machine.pc
  delay : 0 ≤ machine.delay ∧ machine.delay ≤ 255
  sound : 0 ≤ machine.sound ∧ machine.sound ≤ 255
  waitRegister : machine.waitRegister.val ≤ 15
  keypad : machine.keypad.pressed.toList.length = 16
  rowCount : machine.display.screen.rows.toList.length = 32
  rows : ∀ row ∈ machine.display.screen.rows.toList, row.toList.length = 64

theorem WellFormed.representation {machine : Machine} (valid : machine.WellFormed) :
    machine.Representation where
  memory := by simp [Memory.bytes, valid.surplus]
  registerCount := Vector.length_toList
  registers := register_values valid
  stack := Vector.length_toList
  depth := ⟨Nat.zero_le _, Nat.le_of_lt_succ machine.depth.isLt⟩
  index := ⟨valid.index_nonneg, valid.index_le⟩
  pc := valid.pc
  delay := valid.delay
  sound := valid.sound
  waitRegister := Nat.le_of_lt_succ machine.waitRegister.isLt
  keypad := Vector.length_toList
  rowCount := Vector.length_toList
  rows row _ := Vector.length_toList

/-- After every history the fields are in their ranges, and a word or a cycle fails by a fault if it
fails at all. -/
theorem representation_after (clock : Hertz) (shiftUsesVy : Bool) (random : ByteSource)
    (operations : List Operation) :
    let machine := (powerOn clock shiftUsesVy random).after operations
    machine.Representation ∧
      (∀ opcode, (machine.execute opcode).answer = .ok () ∨
        ∃ fault, (machine.execute opcode).answer = .error (.faulted fault)) ∧
      ((∃ ended, machine.cycle.answer = .ok ended) ∨
        ∃ fault, machine.cycle.answer = .error (.faulted fault)) := by
  intro machine
  have valid : machine.WellFormed :=
    (powerOn_wellFormed clock shiftUsesVy random).after operations
  exact ⟨valid.representation, fun opcode => (execute_executed valid opcode).answer,
    cycle_answer valid⟩

end ChipEight.Machine
