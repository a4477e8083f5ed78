import ChipEight.Proofs.Machine.Drawing

/-!
# What no cycle touches

The keypad and the settings are the same before and after a cycle, on every machine and also where
an instruction is broken off.  So they are when a program is loaded.
-/

namespace ChipEight.Machine

/-- No instruction changes the keypad, the rate or the way in which shifts are done. -/
theorem execute_equipment (machine : Machine) (word : Opcode) :
    (machine.execute word).state.equipment = machine.equipment := by
  cases decoded : Instruction.ofOpcode? word with
  | none =>
      rw [execute_of_unknown machine decoded]
      rfl
  | some instruction =>
      have performed := (machine.fetched word).perform_leaves instruction
      rw [execute_of_decoded machine decoded]
      generalize (machine.fetched word).perform instruction = result at performed ⊢
      cases result with
      | ok done => exact performed.1
      | error interrupted => exact performed.1

theorem cycle_equipment (machine : Machine) :
    machine.cycle.state.equipment = machine.equipment := by
  rcases machine.cycle_cases with
    ended | ⟨room, waiting⟩ | ⟨below, awake⟩ | ⟨inside, room, awake⟩
  · rw [cycle_of_ended ended]
  · rw [cycle_of_waiting room waiting]
  · rw [cycle_of_below below awake]
  · rw [cycle_of_executing inside room awake]
    exact machine.execute_equipment machine.nextWord

/-- A program changes memory alone. -/
theorem load_equipment (machine : Machine) (program : List Byte) :
    (machine.load program).state.equipment = machine.equipment := by
  rw [load]
  split <;> rfl

theorem cycle_clock (machine : Machine) : machine.cycle.state.clock = machine.clock :=
  congrArg Equipment.clock machine.cycle_equipment

theorem load_clock (machine : Machine) (program : List Byte) :
    (machine.load program).state.clock = machine.clock :=
  congrArg Equipment.clock (machine.load_equipment program)

theorem reset_clock (machine : Machine) : machine.reset.clock = machine.clock := by
  rw [reset, powerOn]

theorem reset_shiftUsesVy (machine : Machine) :
    machine.reset.shiftUsesVy = machine.shiftUsesVy := by
  rw [reset, powerOn]

end ChipEight.Machine
