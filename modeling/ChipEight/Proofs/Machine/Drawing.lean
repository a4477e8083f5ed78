import ChipEight.Machine.Load
import ChipEight.Proofs.Machine.Execution

/-!
# Who draws

Only two instructions touch the display, and both mark it as dirty.  The rest leaves it alone, also
on a machine that is not well formed and also where a store is broken off.  No instruction touches
the keypad or the settings.  `cycle_display` says of a whole cycle what becomes of the display, with
the event in its log that tells of a touch.
-/

namespace ChipEight

/-- The part of a machine that no program works on: keys are pressed from outside, and clock rate
and shift mode are chosen when the machine is made. -/
structure Equipment where
  keypad : Keypad
  clock : Hertz
  shiftUsesVy : Bool
  deriving DecidableEq

/-- The instructions that touch the display. -/
def Instruction.Draws : Instruction → Prop
  | .clearScreen => True
  | .draw _ _ _ => True
  | _ => False

/-- The events that tell of a touch of the display: a reset, and a word that clears or draws. -/
def LogEvent.TellsOfDrawing : LogEvent → Prop
  | .resetting => True
  | .executing _ word => word = 0x00E0 ∨ word.kind = 0xD
  | _ => False

/-! ## Words that draw -/

section Decoding

variable {word : Opcode} {instruction : Instruction}

theorem Instruction.eq_of_ofSystem?_draws (decoded : ofSystem? word = some instruction)
    (draws : instruction.Draws) : word = 0x00E0 := by
  simp only [ofSystem?] at decoded
  split at decoded
  next clears => exact clears
  next =>
    split at decoded
    next =>
      cases decoded
      exact draws.elim
    next => cases decoded

theorem Instruction.not_draws_of_ofKeyTest? (decoded : ofKeyTest? word = some instruction) :
    ¬ instruction.Draws := by
  simp only [ofKeyTest?] at decoded
  repeat' split at decoded
  all_goals cases decoded <;> exact id

theorem Instruction.not_draws_of_ofTransfer? (decoded : ofTransfer? word = some instruction) :
    ¬ instruction.Draws := by
  simp only [ofTransfer?] at decoded
  repeat' split at decoded
  all_goals cases decoded <;> exact id

/-- Only two kinds of words draw: the one that clears the screen and those that draw a sprite. -/
theorem Instruction.word_of_draws (decoded : ofOpcode? word = some instruction)
    (draws : instruction.Draws) : word = 0x00E0 ∨ word.kind = 0xD := by
  simp only [ofOpcode?] at decoded
  split at decoded
  case h_1 => exact Or.inl (eq_of_ofSystem?_draws decoded draws)
  case h_14 kind => exact Or.inr kind
  case h_15 => exact absurd draws (not_draws_of_ofKeyTest? decoded)
  case h_16 => exact absurd draws (not_draws_of_ofTransfer? decoded)
  case h_9 =>
    obtain ⟨operation, _, rfl⟩ := Option.map_eq_some_iff.mp decoded
    exact draws.elim
  case h_6 =>
    split at decoded <;> cases decoded
    exact draws.elim
  case h_10 =>
    split at decoded <;> cases decoded
    exact draws.elim
  all_goals
    cases decoded
    exact draws.elim

end Decoding

namespace Machine

def equipment (machine : Machine) : Equipment :=
  ⟨machine.keypad, machine.clock, machine.shiftUsesVy⟩

/-! ## One instruction -/

/-- What holds of the machine that an instruction leaves, carried out or not. -/
def Leaves (holds : Machine → Prop) : Except Interrupted Machine → Prop
  | .ok done => holds done
  | .error interrupted => holds interrupted.machine

theorem leaves_bind {α : Type} {holds : Machine → Prop} {result : Except Interrupted α}
    {next : α → Machine}
    (failed : ∀ interrupted, result = .error interrupted → holds interrupted.machine)
    (done : ∀ value, result = .ok value → holds (next value)) :
    Leaves holds (result >>= fun value => pure (next value)) := by
  cases result with
  | ok value => exact done value rfl
  | error interrupted => exact failed interrupted rfl

theorem leaves_guarded {holds : Machine → Prop} {machine result : Machine}
    {fault? : Option FaultCause} (before : holds machine) (after : holds result) :
    Leaves holds (machine.guarded fault? result) := by
  cases fault? with
  | none => exact after
  | some cause => exact before

theorem machine_of_orStay_error {α : Type} {machine : Machine} {result : Except Interruption α}
    {interrupted : Interrupted} (failed : machine.orStay result = .error interrupted) :
    interrupted.machine = machine := by
  cases result with
  | ok value => cases failed
  | error reason =>
      cases failed
      rfl

/-- A store leaves everything but memory alone, also when it is refused. -/
theorem store_frame (machine : Machine) (block : List Int) :
    Leaves (fun done => ∃ memory, done = { machine with memory := memory })
      (machine.store block) := by
  rw [store, requireMemory_eq]
  cases machine.accessFault? block.length with
  | some cause => exact ⟨_, rfl⟩
  | none =>
      simp only [guarded, bind, Except.bind]
      split <;> exact ⟨_, rfl⟩

/-- A store that is broken off has written memory and nothing else. -/
theorem leaves_store {holds : Machine → Prop} {machine : Machine} {block : List Int}
    {next : Machine → Machine} (broken : ∀ memory, holds { machine with memory := memory })
    (done : ∀ memory, holds (next { machine with memory := memory })) :
    Leaves holds (machine.store block >>= fun stored => pure (next stored)) := by
  have frame := machine.store_frame block
  refine leaves_bind (fun interrupted failed => ?_) fun stored carriedOut => ?_
  · rw [failed] at frame
    obtain ⟨memory, same⟩ := frame
    rw [same]
    exact broken memory
  · rw [carriedOut] at frame
    obtain ⟨memory, same⟩ := frame
    rw [same]
    exact done memory

theorem machine_of_fetchBlock_error {machine : Machine} {length : Nat} {interrupted : Interrupted}
    (failed : machine.fetchBlock length = .error interrupted) : interrupted.machine = machine := by
  rw [fetchBlock, requireMemory_eq] at failed
  cases access : machine.accessFault? length with
  | some cause =>
      rw [access] at failed
      cases failed
      rfl
  | none =>
      rw [access] at failed
      exact machine_of_orStay_error failed

/-- No instruction touches the equipment.  Only those that draw touch the display, and they mark it
as dirty. -/
theorem perform_leaves (machine : Machine) (instruction : Instruction) :
    Leaves
      (fun done => done.equipment = machine.equipment ∧
        (done.display = machine.display ∨ (done.display.dirty = true ∧ instruction.Draws)))
      (machine.perform instruction) := by
  have same : ∀ {done : Machine}, done = machine → done.equipment = machine.equipment ∧
      (done.display = machine.display ∨ (done.display.dirty = true ∧ instruction.Draws)) := by
    rintro done rfl
    exact ⟨rfl, Or.inl rfl⟩
  cases instruction with
  | clearScreen => exact ⟨rfl, Or.inr ⟨rfl, trivial⟩⟩
  | draw x y rows =>
      rw [perform_draw]
      exact leaves_guarded (same rfl) ⟨rfl, Or.inr ⟨rfl, trivial⟩⟩
  | ret =>
      rcases machine.perform_ret with ⟨_, stopped⟩ | ⟨_, _, returned⟩
      · rw [stopped]
        exact same rfl
      · rw [returned]
        exact ⟨rfl, Or.inl rfl⟩
  | call target =>
      rcases machine.perform_call target with ⟨_, stopped⟩ | ⟨_, called⟩
      · rw [stopped]
        exact same rfl
      · rw [called]
        exact ⟨rfl, Or.inl rfl⟩
  | skipIfPressed x | skipUnlessPressed x =>
      exact leaves_bind (fun _ failed => same (machine_of_orStay_error failed))
        fun _ _ => ⟨rfl, Or.inl rfl⟩
  | arithmetic operation x y => cases operation <;> exact ⟨rfl, Or.inl rfl⟩
  | storeDecimal x | storeRegisters x =>
      exact leaves_store (fun _ => ⟨rfl, Or.inl rfl⟩) fun _ => ⟨rfl, Or.inl rfl⟩
  | loadRegisters x =>
      exact leaves_bind (fun _ failed => same (machine_of_fetchBlock_error failed))
        fun _ _ => ⟨rfl, Or.inl rfl⟩
  | _ => exact ⟨rfl, Or.inl rfl⟩

/-! ## One cycle -/

/-- What may happen to the display while a log is written: nothing, or a touch of which the log
tells and that marks the display as dirty. -/
def DisplayFollows (before : Machine) (log : List LogEvent) (after : Machine) : Prop :=
  after.display = before.display ∨
    (after.display.dirty = true ∧ ∃ event ∈ log, event.TellsOfDrawing)

/-- A word that changes the display marks it as dirty, and the log tells of a word that draws. -/
theorem execute_display (machine : Machine) (word : Opcode) :
    machine.DisplayFollows (machine.execute word).log (machine.execute word).state := by
  cases decoded : Instruction.ofOpcode? word with
  | none =>
      rw [execute_of_unknown machine decoded]
      exact Or.inl rfl
  | some instruction =>
      have told : instruction.Draws →
          ∃ event ∈ [LogEvent.executing machine.pc word], event.TellsOfDrawing :=
        fun draws => ⟨_, List.mem_singleton_self _, Instruction.word_of_draws decoded draws⟩
      have performed := (machine.fetched word).perform_leaves instruction
      rw [execute_of_decoded machine decoded]
      generalize (machine.fetched word).perform instruction = result at performed ⊢
      cases result with
      | ok done => exact performed.2.imp_right fun touched => ⟨touched.1, told touched.2⟩
      | error interrupted =>
          exact performed.2.imp_right fun touched => ⟨touched.1, told touched.2⟩

theorem cycle_display (machine : Machine) :
    machine.DisplayFollows machine.cycle.log machine.cycle.state := by
  rcases machine.cycle_cases with
    ended | ⟨room, waiting⟩ | ⟨below, awake⟩ | ⟨inside, room, awake⟩
  · rw [cycle_of_ended ended]
    exact Or.inl rfl
  · rw [cycle_of_waiting room waiting]
    exact Or.inl rfl
  · rw [cycle_of_below below awake]
    exact Or.inl rfl
  · rw [cycle_of_executing inside room awake]
    exact machine.execute_display machine.nextWord

/-! ## The other operations -/

/-- Two stretches that tell of their drawing tell of it together. -/
theorem DisplayFollows.join {first second third : Machine} {log later : List LogEvent}
    (earlier : first.DisplayFollows log second) (rest : second.DisplayFollows later third) :
    first.DisplayFollows (log ++ later) third := by
  rcases rest with same | ⟨dirty, event, member, tells⟩
  · rcases earlier with before | ⟨dirty, event, member, tells⟩
    · exact Or.inl (same.trans before)
    · exact Or.inr ⟨by rw [same]; exact dirty, event, List.mem_append_left later member, tells⟩
  · exact Or.inr ⟨dirty, event, List.mem_append_right log member, tells⟩

theorem endWait_display (machine : Machine) (index : Int) :
    (machine.endWait index).1.display = machine.display := by
  rw [endWait]
  split <;> rfl

theorem load_display (machine : Machine) (program : List Byte) :
    (machine.load program).state.display = machine.display := by
  rw [load]
  split <;> rfl

end Machine

end ChipEight
