import ChipEight.Proofs.Machine.Histories

/-!
# The words that fault

`Machine.FaultsOn` tells the words that a machine cannot execute by their nibbles.
`cycle_faults_iff` puts it together with the fetch: it says after which histories a cycle faults,
and that the machine is then left as it was.
-/

namespace ChipEight.Machine

/-- The words that fault on a machine. -/
def FaultsOn (machine : Machine) (word : Opcode) : Prop :=
  (word = 0x00EE ∧ machine.depth.val = 0) ∨
  (word.kind = 0x2 ∧ machine.depth.val = 16) ∨
  (word.kind = 0xD ∧ 4096 < machine.index + word.n.val) ∨
  (word.kind = 0xF ∧ word.byte = 0x33 ∧ 4096 < machine.index + 3) ∨
  (word.kind = 0xF ∧ (word.byte = 0x55 ∨ word.byte = 0x65) ∧
    4096 < machine.index + word.x.val + 1) ∨
  (word.kind = 0xE ∧ (word.byte = 0x9E ∨ word.byte = 0xA1) ∧ 16 ≤ machine.register word.x)

section Decoding

variable (machine : Machine) (word : Opcode)

theorem accessFault?_ne_none_iff (length : Nat) :
    machine.accessFault? length ≠ none ↔ 4096 < machine.index + length := by
  simp [accessFault?]

theorem keyFault?_ne_none_iff (x : Register) :
    machine.keyFault? x ≠ none ↔ 16 ≤ machine.register x := by
  simp [keyFault?]

theorem ofSystem?_fault_iff :
    (Instruction.ofSystem? word).bind machine.faultCause? ≠ none ↔
      word = 0x00EE ∧ machine.depth.val = 0 := by
  simp only [Instruction.ofSystem?]
  by_cases clears : word = 0x00E0
  · subst clears
    simp [faultCause?]
  · by_cases returns : word = 0x00EE
    · subst returns
      simp [faultCause?]
    · simp [clears, returns]

theorem ofKeyTest?_fault_iff :
    (Instruction.ofKeyTest? word).bind machine.faultCause? ≠ none ↔
      (word.byte = 0x9E ∨ word.byte = 0xA1) ∧ 16 ≤ machine.register word.x := by
  rw [← keyFault?_ne_none_iff]
  simp only [Instruction.ofKeyTest?]
  by_cases pressed : word.byte = 0x9E
  · simp [pressed, faultCause?]
  · by_cases released : word.byte = 0xA1
    · simp [released, faultCause?]
    · simp [pressed, released]

/-- Of the words that move data only those that touch memory in blocks can be refused. -/
theorem ofTransfer?_fault_iff :
    (Instruction.ofTransfer? word).bind machine.faultCause? ≠ none ↔
      (word.byte = 0x33 ∧ 4096 < machine.index + 3) ∨
        ((word.byte = 0x55 ∨ word.byte = 0x65) ∧ 4096 < machine.index + word.x.val + 1) := by
  have decimal := accessFault?_ne_none_iff machine 3
  have block := accessFault?_ne_none_iff machine (word.x.val + 1)
  simp only [Instruction.ofTransfer?]
  repeat' split
  all_goals simp_all [faultCause?, Int.add_assoc]

/-- The words that are refused, family by family. -/
theorem faultOf?_ne_none_iff : machine.faultOf? word ≠ none ↔ machine.FaultsOn word := by
  have notReturn : word.kind ≠ 0 → word ≠ 0x00EE := by
    rintro other rfl
    exact other rfl
  unfold faultOf? Instruction.ofOpcode?
  split
  case h_1 kind =>
    rw [ofSystem?_fault_iff]
    simp [FaultsOn, kind]
  case h_3 kind => simp [FaultsOn, kind, faultCause?, notReturn]
  case h_14 kind =>
    have access := accessFault?_ne_none_iff machine word.n.val
    simp_all [FaultsOn, faultCause?]
  case h_15 kind =>
    rw [ofKeyTest?_fault_iff]
    simp [FaultsOn, kind, notReturn]
  case h_16 =>
    have kind : word.kind = 0xF := by
      grind
    rw [ofTransfer?_fault_iff]
    simp [FaultsOn, kind, notReturn]
  case h_6 kind => split <;> simp [FaultsOn, kind, faultCause?, notReturn]
  case h_9 kind =>
    cases Alu.ofNibble? word.n <;> simp [FaultsOn, kind, faultCause?, notReturn]
  case h_10 kind => split <;> simp [FaultsOn, kind, faultCause?, notReturn]
  all_goals
    rename_i kind
    simp [FaultsOn, kind, faultCause?, notReturn]

end Decoding

/-! ## Cycles that fail -/

section Cycle

variable {machine : Machine}

theorem cycle_faulted_iff (valid : machine.WellFormed) :
    (∃ fault, machine.cycle.answer = .error (.faulted fault)) ↔
      machine.pc < 0xFFE ∧ machine.waiting = false ∧
        (machine.pc < 0x200 ∨ machine.FaultsOn machine.nextWord) := by
  rcases machine.cycle_cases with
    ended | ⟨room, waiting⟩ | ⟨below, awake⟩ | ⟨inside, room, awake⟩
  · rw [cycle_of_ended ended]
    simp only [programEnd, memorySize] at ended
    simp [show ¬ machine.pc < 0xFFE by omega]
  · rw [cycle_of_waiting room waiting]
    simp [waiting]
  · rw [cycle_of_below below awake]
    simp only [programStart] at below
    simp [awake, show machine.pc < 0xFFE by omega, show machine.pc < 0x200 by omega]
  · rw [cycle_of_executing inside room awake, ← faultOf?_ne_none_iff]
    simp only [programStart, programEnd, memorySize] at inside room
    simp only [awake, show machine.pc < 0xFFE by omega, show ¬ machine.pc < 0x200 by omega,
      true_and, false_or]
    have executed := execute_executed valid machine.nextWord
    generalize machine.execute machine.nextWord = outcome at executed ⊢
    cases executed with
    | done harmless _ => simp [harmless, Except.map]
    | faulted cause => simp [cause, Except.map]

/-- What a cycle that fails leaves behind. -/
theorem cycle_of_error (valid : machine.WellFormed) {interruption : Interruption}
    (failed : machine.cycle.answer = .error interruption) :
    ∃ fault, interruption = .faulted fault ∧
      ((machine.pc < 0x200 ∧ machine.cycle.state = machine ∧
          fault.pc = none ∧ fault.opcode = none) ∨
        (0x200 ≤ machine.pc ∧
          machine.cycle.state = { machine with opcode := machine.nextWord } ∧
          fault.pc = some machine.pc ∧ fault.opcode = some (machine.nextWord.toNat : Int))) := by
  rcases machine.cycle_cases with
    ended | ⟨room, waiting⟩ | ⟨below, awake⟩ | ⟨inside, room, awake⟩
  · simp [cycle_of_ended ended] at failed
  · simp [cycle_of_waiting room waiting] at failed
  · rw [cycle_of_below below awake] at failed ⊢
    exact ⟨_, (Except.error.inj failed).symm, Or.inl ⟨below, rfl, rfl, rfl⟩⟩
  · rw [cycle_of_executing inside room awake] at failed ⊢
    have executed := execute_executed valid machine.nextWord
    generalize machine.execute machine.nextWord = outcome at executed failed ⊢
    cases executed with
    | done _ _ => simp [Except.map] at failed
    | faulted _ => exact ⟨_, (Except.error.inj failed).symm, Or.inr ⟨inside, rfl, rfl, rfl⟩⟩

end Cycle

/-- After every history, a cycle faults exactly if the program is neither at its end nor waiting
and either stands below its start or at a word that faults.  Nothing is changed then, except that
a word is recorded as executed. -/
theorem cycle_faults_iff (clock : Hertz) (shiftUsesVy : Bool) (random : ByteSource)
    (operations : List Operation) :
    let machine := (powerOn clock shiftUsesVy random).after operations
    ((∃ fault, machine.cycle.answer = .error (.faulted fault)) ↔
      machine.pc < 0xFFE ∧ machine.waiting = false ∧
        (machine.pc < 0x200 ∨ machine.FaultsOn machine.nextWord)) ∧
    ∀ interruption, machine.cycle.answer = .error interruption →
      ∃ fault, interruption = .faulted fault ∧
        ((machine.pc < 0x200 ∧ machine.cycle.state = machine ∧
            fault.pc = none ∧ fault.opcode = none) ∨
          (0x200 ≤ machine.pc ∧
            machine.cycle.state = { machine with opcode := machine.nextWord } ∧
            fault.pc = some machine.pc ∧
            fault.opcode = some (machine.nextWord.toNat : Int))) := by
  intro machine
  have valid : machine.WellFormed :=
    (powerOn_wellFormed clock shiftUsesVy random).after operations
  exact ⟨cycle_faulted_iff valid, fun interruption failed => cycle_of_error valid failed⟩

end ChipEight.Machine
