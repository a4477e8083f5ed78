import ChipEight.Proofs.Machine.Calls

/-!
# Where a machine can stand

A program runs from `0x200` up to the last address with room for a word, and the first instruction
that leads out of that stretch is its last one.  `Machine.Situated` bounds the program counter, the
pending calls and the place of a wait for a key.  The bounds need one another: a return goes behind
a pending call, the end of a wait behind the instruction that waits, and a call or a wait begins
where a word was fetched.
-/

namespace ChipEight

/-- The addresses from which words are fetched. -/
def InProgram (address : Int) : Prop :=
  programStart ≤ address ∧ address < programEnd

theorem InProgram.bounds {address : Int} (inside : InProgram address) :
    0x200 ≤ address ∧ address ≤ 0xFFD := by
  obtain ⟨lower, upper⟩ := inside
  simp only [programStart, programEnd, memorySize] at lower upper
  omega

/-- The farthest that the program counter gets: a jump to the last address with an offset of
`0xFF`. -/
def farthestPc : Int := 0x10FE

namespace Machine

/-- The machine waits at an instruction that waits for a key, the one that it executed last. -/
structure AwaitsHere (machine : Machine) : Prop where
  inside : InProgram machine.pc
  fetched : machine.opcode = machine.nextWord
  awaits : machine.opcode = (Instruction.awaitKey machine.waitRegister).word

structure Situated (machine : Machine) : Prop where
  wellFormed : machine.WellFormed
  pc : machine.pc ≤ farthestPc
  sites : ∀ site ∈ machine.pendingCalls, InProgram site
  wait : machine.waiting = true → machine.AwaitsHere

section Steered

variable {machine done : Machine} {instruction : Instruction}

/-- A jump that adds register 0 reaches farthest. -/
theorem Steered.pc_le (steered : machine.Steered done instruction)
    (inside : InProgram machine.pc) (offset : IsByte (machine.register 0))
    (sites : ∀ site ∈ machine.pendingCalls, InProgram site) : done.pc ≤ farthestPc := by
  obtain ⟨_, room⟩ := inside.bounds
  obtain ⟨_, small⟩ := offset
  simp only [farthestPc]
  cases steered with
  | onward _ moved =>
      have pc : done.pc = machine.pc + 2 := congrArg Control.pc moved
      omega
  | skipped _ moved =>
      have pc : done.pc = machine.pc + 4 := congrArg Control.pc moved
      omega
  | @jump target moved | @call target _ moved =>
      have pc : done.pc = target.val := congrArg Control.pc moved
      omega
  | @jumpOffset base moved =>
      have pc : done.pc = base.val + machine.register 0 := congrArg Control.pc moved
      omega
  | @ret slot pending moved =>
      have pc : done.pc = machine.stack.get slot + 2 := congrArg Control.pc moved
      have top := pendingCalls_pop pending (congrArg Control.stack moved)
        (congrArg Control.depth moved)
      have popped := sites (machine.stack.get slot) (top ▸ List.mem_concat_self)
      obtain ⟨_, below⟩ := popped.bounds
      omega
  | awaitKey moved =>
      have pc : done.pc = machine.pc := congrArg Control.pc moved
      omega

/-- Only one instruction makes a machine wait. -/
theorem Steered.awaits (steered : machine.Steered done instruction)
    (awake : machine.waiting = false) (waiting : done.waiting = true) :
    ∃ x, instruction = .awaitKey x := by
  -- Whatever leaves the mark of a wait alone starts none.
  have quiet : ∀ {control : Control}, done.control = control →
      control.waiting = machine.waiting → ∃ x, instruction = .awaitKey x := by
    intro control moved kept
    have same : done.waiting = machine.waiting := (congrArg Control.waiting moved).trans kept
    rw [waiting, awake] at same
    cases same
  cases steered with
  | awaitKey _ => exact ⟨_, rfl⟩
  | onward _ moved => exact quiet moved rfl
  | skipped _ moved => exact quiet moved rfl
  | jump moved => exact quiet moved rfl
  | jumpOffset moved => exact quiet moved rfl
  | call _ moved => exact quiet moved rfl
  | ret _ moved => exact quiet moved rfl

end Steered

theorem mem_of_mem_book {calls : List Int} {entry : CarriedOut} {site : Int}
    (booked : site ∈ book calls entry) : site = entry.site ∨ site ∈ calls := by
  simp only [book] at booked
  split at booked
  · exact List.mem_cons.mp booked
  · split at booked
    · exact Or.inr (List.mem_of_mem_tail booked)
    · exact Or.inr booked

section Word

variable {machine : Machine} {word : Opcode}

/-- Executing a word ends in one of three states: the word is refused, is no instruction, or is
carried out. -/
theorem execute_state_cases (valid : machine.WellFormed) (word : Opcode) :
    (machine.execute word).state = machine.fetched word ∨
    (machine.execute word).state = (machine.fetched word).advance ∨
    ∃ instruction, Instruction.ofOpcode? word = some instruction ∧
      (machine.fetched word).perform instruction = .ok (machine.execute word).state := by
  by_cases carriedOut : (machine.execute word).answer = .ok ()
  · right
    cases decoded : Instruction.ofOpcode? word with
    | none =>
        rw [execute_of_unknown machine decoded]
        exact Or.inl rfl
    | some instruction =>
        exact Or.inr ⟨instruction, rfl, perform_of_answer decoded carriedOut⟩
  · exact Or.inl (execute_refused valid carriedOut)

/-- A call is booked at an address that was fetched from, so every pending call lies in the program
space. -/
theorem execute_sites (valid : machine.WellFormed) (inside : InProgram machine.pc)
    (sites : ∀ site ∈ machine.pendingCalls, InProgram site) (word : Opcode) :
    ∀ site ∈ (machine.execute word).state.pendingCalls, InProgram site := by
  intro site member
  by_cases carriedOut : (machine.execute word).answer = .ok ()
  · rw [← List.mem_reverse, execute_books carriedOut] at member
    rcases mem_of_mem_book member with rfl | earlier
    · exact inside
    · exact sites site (List.mem_reverse.mp earlier)
  · rw [execute_refused valid carriedOut] at member
    exact sites site member

theorem execute_pc_le (valid : machine.WellFormed) (inside : InProgram machine.pc)
    (sites : ∀ site ∈ machine.pendingCalls, InProgram site) (word : Opcode) :
    (machine.execute word).state.pc ≤ farthestPc := by
  obtain ⟨_, room⟩ := inside.bounds
  rcases execute_state_cases valid word with refused | unknown | ⟨instruction, _, performed⟩
  · rw [refused]
    simp only [fetched, farthestPc]
    omega
  · rw [unknown]
    simp only [fetched, advance, farthestPc]
    omega
  · exact (perform_steered performed).pc_le inside (valid.registers 0) sites

/-- A wait that begins when the next word is executed begins at that word. -/
theorem execute_awaitsHere (valid : machine.WellFormed) (inside : InProgram machine.pc)
    (awake : machine.waiting = false)
    (waiting : (machine.execute machine.nextWord).state.waiting = true) :
    (machine.execute machine.nextWord).state.AwaitsHere := by
  rcases execute_state_cases valid machine.nextWord with
    refused | unknown | ⟨instruction, decoded, performed⟩
  · rw [congrArg Machine.waiting refused] at waiting
    exact absurd waiting (Bool.eq_false_iff.mp awake)
  · rw [congrArg Machine.waiting unknown] at waiting
    exact absurd waiting (Bool.eq_false_iff.mp awake)
  · obtain ⟨x, rfl⟩ :=
      (perform_steered performed).awaits awake waiting
    rw [← Except.ok.inj performed]
    exact ⟨inside, rfl, Instruction.ofOpcode?_eq_some_iff.mp decoded⟩

end Word

theorem powerOn_situated (clock : Hertz) (shiftUsesVy : Bool) (random : ByteSource) :
    (powerOn clock shiftUsesVy random).Situated where
  wellFormed := powerOn_wellFormed clock shiftUsesVy random
  pc := by simp [powerOn, programStart, farthestPc]
  sites site member := by simp [pendingCalls, powerOn] at member
  wait waiting := by cases waiting

namespace Situated

variable {machine : Machine}

theorem load (situated : machine.Situated) (awake : machine.waiting = false)
    (program : List Byte) : (machine.load program).state.Situated := by
  have valid := situated.wellFormed.load program
  rw [Machine.load] at valid ⊢
  split at valid
  next fits =>
    rw [if_pos fits]
    exact ⟨valid, situated.pc, situated.sites,
      fun waiting => absurd waiting (Bool.eq_false_iff.mp awake)⟩
  next large =>
    rw [if_neg large]
    exact situated

theorem cycle (situated : machine.Situated) : machine.cycle.state.Situated := by
  have valid := situated.wellFormed
  rcases machine.cycle_cases with
    ended | ⟨room, waiting⟩ | ⟨below, awake⟩ | ⟨inside, room, awake⟩
  · rw [cycle_of_ended ended]
    exact situated
  · rw [cycle_of_waiting room waiting]
    exact situated
  · rw [cycle_of_below below awake]
    exact situated
  · have here : InProgram machine.pc := ⟨inside, room⟩
    have cycled := valid.cycle
    rw [cycle_of_executing inside room awake] at cycled ⊢
    exact ⟨cycled, execute_pc_le valid here situated.sites _,
      execute_sites valid here situated.sites _, execute_awaitsHere valid here awake⟩

theorem tickTimers (situated : machine.Situated) : machine.tickTimers.Situated :=
  ⟨situated.wellFormed.tickTimers, situated.pc, situated.sites,
    fun waiting => { situated.wait waiting with }⟩

theorem setKey (situated : machine.Situated) (key : Key) (pressed : Bool) :
    (machine.setKey key pressed).Situated :=
  ⟨situated.wellFormed.setKey key pressed, situated.pc, situated.sites,
    fun waiting => { situated.wait waiting with }⟩

theorem setDisplay (situated : machine.Situated) (display : Display) :
    { machine with display := display }.Situated :=
  ⟨situated.wellFormed.setDisplay display, situated.pc, situated.sites,
    fun waiting => { situated.wait waiting with }⟩

/-- The end of a wait goes one word on, and the wait began inside the program space. -/
theorem endWait (situated : machine.Situated) (index : Int) :
    (machine.endWait index).1.Situated := by
  have valid := situated.wellFormed.endWait index
  rw [Machine.endWait] at valid ⊢
  split at valid
  next waiting =>
    obtain ⟨_, room⟩ := (situated.wait waiting).inside.bounds
    rw [if_pos waiting]
    refine ⟨valid, ?_, situated.sites, fun still => by cases still⟩
    have pc : machine.pc + 2 ≤ farthestPc := by
      simp only [farthestPc]
      omega
    exact pc
  next awake =>
    rw [if_neg awake]
    exact situated

theorem stack_inProgram (situated : machine.Situated) {slot : Fin stackDepth}
    (pending : slot.val < machine.depth.val) : InProgram (machine.stack.get slot) := by
  have room : slot.val < machine.pendingCalls.length := by
    rw [length_pendingCalls]
    exact pending
  have held : machine.pendingCalls[slot.val] = machine.stack.get slot := by
    simp [pendingCalls, Vector.get]
  rw [← held]
  exact situated.sites _ (List.getElem_mem room)

end Situated

end Machine

end ChipEight
