import ChipEight.Proofs.Machine.Drawing

/-!
# How instructions steer a program

A machine has data, which instructions work on, and a control part, which decides how its program
goes on.  `perform_steered` lists the ways in which an instruction moves the control part: most lead
to the next instruction or skip it, and only a call, a return, a jump and a wait for a key do
anything else.
-/

namespace ChipEight

/-- A machine without what its instructions work on: memory, registers, index, timers, display and
random bytes. -/
structure Control where
  pc : Int
  stack : Vector Int stackDepth
  depth : Fin (stackDepth + 1)
  opcode : Opcode
  waiting : Bool
  waitRegister : Register
  keypad : Keypad
  clock : Hertz
  shiftUsesVy : Bool
  deriving DecidableEq

namespace Instruction

/-- The instructions that do not lead to the one behind them. -/
def Redirects : Instruction → Prop
  | .ret => True
  | .jump _ => True
  | .call _ => True
  | .jumpOffset _ => True
  | .awaitKey _ => True
  | _ => False

/-- The instructions that can skip the one behind them. -/
def Skips : Instruction → Prop
  | .skipIfByte _ _ => True
  | .skipUnlessByte _ _ => True
  | .skipIfEqual _ _ => True
  | .skipUnlessEqual _ _ => True
  | .skipIfPressed _ => True
  | .skipUnlessPressed _ => True
  | _ => False

theorem Skips.not_redirects {instruction : Instruction} (skips : instruction.Skips) :
    ¬ instruction.Redirects := by
  revert skips
  cases instruction <;> simp [Skips, Redirects]

end Instruction

namespace Machine

def control (machine : Machine) : Control :=
  ⟨machine.pc, machine.stack, machine.depth, machine.opcode, machine.waiting,
    machine.waitRegister, machine.keypad, machine.clock, machine.shiftUsesVy⟩

/-- The ways in which an instruction that is carried out moves the control part. -/
inductive Steered (machine done : Machine) : Instruction → Prop
  | onward {instruction : Instruction} :
      ¬ instruction.Redirects →
      done.control = { machine.control with pc := machine.pc + 2 } →
      Steered machine done instruction
  | skipped {instruction : Instruction} :
      instruction.Skips →
      done.control = { machine.control with pc := machine.pc + 4 } →
      Steered machine done instruction
  | jump {target : Address} :
      done.control = { machine.control with pc := target.val } →
      Steered machine done (.jump target)
  | jumpOffset {base : Address} :
      done.control = { machine.control with pc := base.val + machine.register 0 } →
      Steered machine done (.jumpOffset base)
  | call {target : Address} (free : machine.depth.val < stackDepth) :
      done.control =
        { machine.control with
          stack := machine.stack.set machine.depth.val machine.pc free
          depth := ⟨machine.depth.val + 1, Nat.succ_lt_succ free⟩
          pc := target.val } →
      Steered machine done (.call target)
  | ret {slot : Fin stackDepth} :
      machine.depth.val = slot.val + 1 →
      done.control =
        { machine.control with depth := slot.castSucc, pc := machine.stack.get slot + 2 } →
      Steered machine done .ret
  | awaitKey {x : Register} :
      done.control = { machine.control with waiting := true, waitRegister := x } →
      Steered machine done (.awaitKey x)

section Steered

variable {machine done : Machine} {instruction : Instruction}

theorem steered_skipIf (skips : instruction.Skips) (condition : Bool) :
    machine.Steered (machine.skipIf condition) instruction := by
  cases condition with
  | true => exact .skipped skips rfl
  | false => exact .onward skips.not_redirects rfl

theorem eq_of_guarded_ok {α : Type} {fault? : Option FaultCause} {value result : α}
    (done : machine.guarded fault? value = .ok result) : result = value := by
  cases fault? with
  | none => exact (Except.ok.inj done).symm
  | some cause => cases done

/-- An instruction that is carried out has worked out what it needs. -/
theorem exists_of_bind_ok {α : Type} {result : Except Interrupted α} {next : α → Machine}
    (carriedOut : (result >>= fun value => pure (next value)) = .ok done) :
    ∃ value, result = .ok value ∧ done = next value := by
  cases result with
  | ok value => exact ⟨value, rfl, (Except.ok.inj carriedOut).symm⟩
  | error interrupted => cases carriedOut

/-- A store that is carried out has written memory and nothing else. -/
theorem exists_of_store_ok {block : List Int} {next : Machine → Machine}
    (carriedOut : (machine.store block >>= fun stored => pure (next stored)) = .ok done) :
    ∃ memory, done = next { machine with memory := memory } := by
  obtain ⟨stored, performed, same⟩ := exists_of_bind_ok carriedOut
  have frame := machine.store_frame block
  rw [performed] at frame
  obtain ⟨memory, written⟩ := frame
  exact ⟨memory, by rw [same, written]⟩

/-- A return that is carried out had a call pending. -/
theorem exists_of_ret_ok (carriedOut : machine.perform .ret = .ok done) :
    ∃ slot : Fin stackDepth, machine.depth.val = slot.val + 1 ∧
      done = { machine with depth := slot.castSucc, pc := machine.stack.get slot + 2 } := by
  rcases machine.perform_ret with ⟨_, stopped⟩ | ⟨slot, pending, returned⟩
  · rw [stopped] at carriedOut
    cases carriedOut
  · rw [returned] at carriedOut
    exact ⟨slot, pending, (Except.ok.inj carriedOut).symm⟩

theorem exists_of_call_ok {target : Address}
    (carriedOut : machine.perform (.call target) = .ok done) :
    ∃ free : machine.depth.val < stackDepth, done =
      { machine with
        stack := machine.stack.set machine.depth.val machine.pc free
        depth := ⟨machine.depth.val + 1, Nat.succ_lt_succ free⟩
        pc := target.val } := by
  rcases machine.perform_call target with ⟨_, stopped⟩ | ⟨free, called⟩
  · rw [stopped] at carriedOut
    cases carriedOut
  · rw [called] at carriedOut
    exact ⟨free, (Except.ok.inj carriedOut).symm⟩

theorem combine_control (machine : Machine) (operation : Alu) (x y : Register) :
    (machine.combine operation x y).control = machine.control := by
  rw [combine]
  split <;> rfl

/-- Every instruction that is carried out moves the control part in one of these ways. -/
theorem perform_steered (carriedOut : machine.perform instruction = .ok done) :
    machine.Steered done instruction := by
  cases instruction with
  | ret =>
      obtain ⟨slot, pending, rfl⟩ := exists_of_ret_ok carriedOut
      exact .ret pending rfl
  | call target =>
      obtain ⟨free, rfl⟩ := exists_of_call_ok carriedOut
      exact .call free rfl
  | jump target =>
      cases carriedOut
      exact .jump rfl
  | jumpOffset base =>
      cases carriedOut
      exact .jumpOffset rfl
  | awaitKey x =>
      cases carriedOut
      exact .awaitKey rfl
  | skipIfByte x value | skipUnlessByte x value | skipIfEqual x y | skipUnlessEqual x y =>
      cases carriedOut
      exact steered_skipIf (by trivial) _
  | skipIfPressed x | skipUnlessPressed x =>
      obtain ⟨pressed, _, rfl⟩ := exists_of_bind_ok carriedOut
      exact steered_skipIf (by trivial) _
  | arithmetic operation x y =>
      cases carriedOut
      have same := machine.combine_control operation x y
      exact .onward id (congrArg (fun control => { control with pc := control.pc + 2 }) same)
  | draw x y rows =>
      rw [perform_draw] at carriedOut
      rw [eq_of_guarded_ok carriedOut]
      exact .onward id rfl
  | storeDecimal x | storeRegisters x =>
      obtain ⟨memory, rfl⟩ := exists_of_store_ok carriedOut
      exact .onward id rfl
  | loadRegisters x =>
      obtain ⟨block, _, rfl⟩ := exists_of_bind_ok carriedOut
      exact .onward id rfl
  | _ =>
      cases carriedOut
      exact .onward id rfl

end Steered

end Machine

end ChipEight
