import ChipEight.Proofs.Machine.Faults

/-!
# Executing words

What executing a word and running one cycle do to a machine.  A well-formed machine stays well
formed, and the only failure is a fault: the machine then is as it was, but for the record of the
word that was executed last.
-/

namespace ChipEight.Machine

/-- Why a word cannot be executed. -/
def faultOf? (machine : Machine) (opcode : Opcode) : Option FaultCause :=
  (Instruction.ofOpcode? opcode).bind machine.faultCause?

/-- The machine that has begun to execute a word. -/
def fetched (machine : Machine) (opcode : Opcode) : Machine :=
  { machine with opcode := opcode }

theorem WellFormed.fetched {machine : Machine} (valid : machine.WellFormed) (opcode : Opcode) :
    (machine.fetched opcode).WellFormed :=
  { valid with surplus := valid.surplus }

theorem faultCause?_fetched (machine : Machine) (opcode : Opcode) (instruction : Instruction) :
    (machine.fetched opcode).faultCause? instruction = machine.faultCause? instruction := by
  cases instruction <;> rfl

/-! ## One word -/

/-- What can come of a word on a well-formed machine. -/
inductive Executed (machine : Machine) (opcode : Opcode) :
    Outcome Machine Interruption Unit → Prop
  | done {result : Machine} {log : List LogEvent} :
      machine.faultOf? opcode = none → result.WellFormed →
      Executed machine opcode ⟨result, .ok (), log⟩
  | faulted {cause : FaultCause} {log : List LogEvent} :
      machine.faultOf? opcode = some cause →
      Executed machine opcode
        ⟨machine.fetched opcode,
          .error (.faulted ⟨cause, some machine.pc, some opcode.toNat⟩), log⟩

/-- An unknown word is reported and passed over. -/
theorem execute_of_unknown (machine : Machine) {opcode : Opcode}
    (unknown : Instruction.ofOpcode? opcode = none) :
    machine.execute opcode =
      ⟨(machine.fetched opcode).advance, .ok (),
        [.executing machine.pc opcode, .unknownOpcode machine.pc opcode]⟩ := by
  simp only [execute, unknown]
  rfl

/-- A word that is decoded performs its instruction on the machine that has fetched it. -/
theorem execute_of_decoded (machine : Machine) {opcode : Opcode} {instruction : Instruction}
    (decoded : Instruction.ofOpcode? opcode = some instruction) :
    machine.execute opcode =
      match (machine.fetched opcode).perform instruction with
      | .ok done => ⟨done, .ok (), [.executing machine.pc opcode]⟩
      | .error interrupted =>
          ⟨interrupted.machine, .error interrupted.reason, [.executing machine.pc opcode]⟩ := by
  simp only [execute, decoded]
  rfl

/-- The machine behind a word that was carried out is what its instruction made of it. -/
theorem perform_of_answer {machine : Machine} {opcode : Opcode} {instruction : Instruction}
    (decoded : Instruction.ofOpcode? opcode = some instruction)
    (carriedOut : (machine.execute opcode).answer = .ok ()) :
    (machine.fetched opcode).perform instruction = .ok (machine.execute opcode).state := by
  rw [execute_of_decoded machine decoded] at carriedOut ⊢
  cases performed : (machine.fetched opcode).perform instruction with
  | ok done => rfl
  | error interrupted =>
      rw [performed] at carriedOut
      cases carriedOut

theorem execute_executed {machine : Machine} (valid : machine.WellFormed) (opcode : Opcode) :
    machine.Executed opcode (machine.execute opcode) := by
  have begun := valid.fetched opcode
  cases decoded : Instruction.ofOpcode? opcode with
  | none =>
      rw [execute_of_unknown machine decoded]
      exact .done (by rw [faultOf?, decoded]; rfl) begun.advance
  | some instruction =>
      have same : machine.faultOf? opcode =
          (machine.fetched opcode).faultCause? instruction := by
        rw [faultOf?, decoded, faultCause?_fetched]
        rfl
      have performed := perform_performed begun instruction
      rw [execute_of_decoded machine decoded]
      generalize (machine.fetched opcode).perform instruction = result at performed ⊢
      cases performed with
      | done harmless result => exact .done (same.trans harmless) result
      | faulted cause => exact .faulted (same.trans cause)

namespace Executed

variable {machine : Machine} {opcode : Opcode} {outcome : Outcome Machine Interruption Unit}

theorem wellFormed (valid : machine.WellFormed) (executed : machine.Executed opcode outcome) :
    outcome.state.WellFormed := by
  cases executed with
  | done _ result => exact result
  | faulted _ => exact valid.fetched opcode

theorem answer (executed : machine.Executed opcode outcome) :
    outcome.answer = .ok () ∨ ∃ fault, outcome.answer = .error (.faulted fault) := by
  cases executed with
  | done _ _ => exact Or.inl rfl
  | faulted _ => exact Or.inr ⟨_, rfl⟩

end Executed

/-! ## One cycle -/

/-- The word to which the program counter points, its upper byte at the lower address. -/
def nextWord (machine : Machine) : Opcode :=
  .ofBytes (machine.memory.cells[machine.pc.toNat]?.getD 0)
    (machine.memory.cells[machine.pc.toNat + 1]?.getD 0)

theorem fetch_eq (machine : Machine) (room : machine.pc < programEnd) :
    machine.fetch room = machine.nextWord := by
  have upper : machine.pc.toNat + 1 < memorySize := by
    simp only [programEnd, memorySize] at room ⊢
    omega
  have lower : machine.pc.toNat < memorySize := Nat.lt_of_succ_lt upper
  simp only [fetch, nextWord, Vector.getElem?_eq_getElem lower, Vector.getElem?_eq_getElem upper,
    Option.getD_some]

section Cycle

variable {machine : Machine}

/-- The end of the program space comes first: not even a waiting machine gets past it. -/
theorem cycle_of_ended (ended : programEnd ≤ machine.pc) :
    machine.cycle = ⟨machine, .ok true, []⟩ := by
  rw [cycle, dif_neg (by omega)]

/-- A machine that waits for a key does nothing, wherever it stands below the end. -/
theorem cycle_of_waiting (room : machine.pc < programEnd) (waiting : machine.waiting = true) :
    machine.cycle = ⟨machine, .ok false, []⟩ := by
  rw [cycle, dif_pos room, if_pos waiting]

/-- A fetch below the program space is refused with neither address nor word. -/
theorem cycle_of_below (below : machine.pc < programStart) (awake : machine.waiting = false) :
    machine.cycle =
      ⟨machine, .error (.faulted ⟨.fetchBelowProgram machine.pc, none, none⟩), []⟩ := by
  have room : machine.pc < programEnd := by
    simp only [programStart, programEnd, memorySize] at below ⊢
    omega
  rw [cycle, dif_pos room, if_neg (by simp [awake]), if_pos below]

theorem cycle_of_executing (inside : programStart ≤ machine.pc) (room : machine.pc < programEnd)
    (awake : machine.waiting = false) :
    machine.cycle =
      ⟨(machine.execute machine.nextWord).state,
        (machine.execute machine.nextWord).answer.map fun _ => false,
        (machine.execute machine.nextWord).log⟩ := by
  rw [cycle, dif_pos room, if_neg (by simp [awake]), if_neg (by omega), fetch_eq]

/-- A cycle is one of four: the program has ended, it waits, the fetch faults, or the next word is
executed. -/
theorem cycle_cases (machine : Machine) :
    (programEnd ≤ machine.pc) ∨
    (machine.pc < programEnd ∧ machine.waiting = true) ∨
    (machine.pc < programStart ∧ machine.waiting = false) ∨
    (programStart ≤ machine.pc ∧ machine.pc < programEnd ∧ machine.waiting = false) := by
  simp only [programStart, programEnd, memorySize]
  cases machine.waiting <;> simp <;> omega

theorem WellFormed.cycle (valid : machine.WellFormed) : machine.cycle.state.WellFormed := by
  rcases machine.cycle_cases with
    ended | ⟨room, waiting⟩ | ⟨below, awake⟩ | ⟨inside, room, awake⟩
  · rw [cycle_of_ended ended]
    exact valid
  · rw [cycle_of_waiting room waiting]
    exact valid
  · rw [cycle_of_below below awake]
    exact valid
  · rw [cycle_of_executing inside room awake]
    exact (execute_executed valid machine.nextWord).wellFormed valid

theorem cycle_answer (valid : machine.WellFormed) :
    (∃ ended, machine.cycle.answer = .ok ended) ∨
      ∃ fault, machine.cycle.answer = .error (.faulted fault) := by
  rcases machine.cycle_cases with
    ended | ⟨room, waiting⟩ | ⟨below, awake⟩ | ⟨inside, room, awake⟩
  · rw [cycle_of_ended ended]
    exact Or.inl ⟨true, rfl⟩
  · rw [cycle_of_waiting room waiting]
    exact Or.inl ⟨false, rfl⟩
  · rw [cycle_of_below below awake]
    exact Or.inr ⟨_, rfl⟩
  · rw [cycle_of_executing inside room awake]
    rcases (execute_executed valid machine.nextWord).answer with done | ⟨fault, faulted⟩
    · exact Or.inl ⟨false, by rw [done]; rfl⟩
    · exact Or.inr ⟨fault, by rw [faulted]; rfl⟩

end Cycle

end ChipEight.Machine
