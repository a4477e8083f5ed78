import ChipEight.Scheduler

/-!
# Commands

What obeying commands can do to a scheduler.  Its program, its limit on written numbers and the mark
of what the window was told about the sound are left alone.  A command fails if it is a reset whose
program does not fit, or if it cannot be reported.
-/

namespace ChipEight

/-- Why a command fails under a scheduler that has a program and a limit on written numbers, if it
does. -/
def Command.failure? (program : List Byte) (digitLimit : Option Nat) :
    Command → Option CommandError
  | .setKey index _ =>
      digitLimit.bind fun most =>
        if (index < 0 ∨ 16 ≤ index) ∧ most < Text.digitCount index then
          some (.tooManyDigits most)
        else none
  | .reset =>
      if program.length ≤ 3584 then none
      else some (.reloadFailed (.tooLarge program.length programStart))
  | .unwritable reason => some (.unwritable reason)
  | _ => none

namespace Scheduler

variable {Time : Type} [Clock Time]

/-! ## One command -/

section Keys

variable (scheduler : Scheduler Time) (index : Int) (pressed : Bool)

omit [Clock Time]

theorem handleKey_of_none (none : Key.ofIndex? index = none) :
    (scheduler.handleKey index pressed).state = scheduler := by
  rw [handleKey, none]
  dsimp only
  split <;> rfl

theorem handleKey_of_some {key : Key} (some : Key.ofIndex? index = some key) :
    (scheduler.handleKey index pressed).state =
      if pressed then (scheduler.pressKey key).1 else scheduler.releaseKey key := by
  rw [handleKey, some]
  cases pressed <;> rfl

/-- A key event changes at most the machine and the key that was pressed last. -/
theorem handleKey_frame :
    ∃ machine lastKey, (scheduler.handleKey index pressed).state =
      { scheduler with machine := machine, lastKey := lastKey } := by
  cases named : Key.ofIndex? index with
  | none => exact ⟨_, _, scheduler.handleKey_of_none index pressed named⟩
  | some key =>
      rw [scheduler.handleKey_of_some index pressed named]
      cases pressed with
      | true =>
          simp only [if_true, pressKey]
          split
          · split <;> exact ⟨_, _, rfl⟩
          · exact ⟨_, _, rfl⟩
      | false => exact ⟨_, _, rfl⟩

/-- A key event is answered, unless its number names no key and is too long to be written. -/
theorem handleKey_answer :
    (scheduler.handleKey index pressed).answer =
      match Command.failure? scheduler.program scheduler.digitLimit (.setKey index pressed) with
      | none => .ok ()
      | some error => .error error := by
  rw [handleKey, Key.ofIndex?, Command.failure?]
  by_cases named : 0 ≤ index ∧ index < 16
  · have inside : ¬ (index < 0 ∨ 16 ≤ index) := by omega
    rw [dif_pos named]
    cases scheduler.digitLimit <;> cases pressed <;> simp [inside]
  · have outside : index < 0 ∨ 16 ≤ index := by omega
    rw [dif_neg named]
    cases scheduler.digitLimit with
    | none => rfl
    | some most =>
        by_cases short : Text.digitCount index ≤ most
        · simp [Text.requireWritable, short, Nat.not_lt_of_le short]
        · simp [Text.requireWritable, short, outside, Nat.lt_of_not_le short]

end Keys

/-- Pausing and resuming change the mark of it and at most the clocks. -/
theorem setRunning_frame (scheduler : Scheduler Time) (running : Bool) (now : Time) :
    ∃ still cycleDue timerDue, (scheduler.setRunning running now).1 =
      { scheduler with running := still, nextCycle := cycleDue, nextTimer := timerDue } := by
  rw [setRunning]
  split
  · exact ⟨_, _, _, rfl⟩
  · split <;> exact ⟨_, _, _, rfl⟩

theorem setRunning_machine (scheduler : Scheduler Time) (running : Bool) (now : Time) :
    (scheduler.setRunning running now).1.machine = scheduler.machine := by
  obtain ⟨_, _, _, frame⟩ := scheduler.setRunning_frame running now
  rw [frame]

theorem load_reset_of_fits (machine : Machine) {program : List Byte}
    (fits : program.length ≤ 3584) : (machine.reset.load program).answer = .ok () := by
  rw [Machine.load, if_pos]
  simp only [Machine.reset, Machine.powerOn, programStart, memorySize]
  omega

theorem load_reset_of_too_large (machine : Machine) {program : List Byte}
    (large : 3584 < program.length) :
    (machine.reset.load program).answer = .error (.tooLarge program.length programStart) := by
  rw [Machine.load, if_neg]
  · rfl
  · simp only [Machine.reset, Machine.powerOn, programStart, memorySize]
    omega

theorem reload_answer (scheduler : Scheduler Time) (now : Time) :
    (scheduler.reload now).answer =
      if scheduler.program.length ≤ 3584 then .ok ()
      else .error (.reloadFailed (.tooLarge scheduler.program.length programStart)) := by
  by_cases fits : scheduler.program.length ≤ 3584
  · rw [if_pos fits]
    simp only [reload, load_reset_of_fits scheduler.machine fits]
  · rw [if_neg fits]
    simp only [reload, load_reset_of_too_large scheduler.machine (Nat.lt_of_not_le fits)]

/-- A reset whose program fits brings the scheduler to a fresh machine with that program. -/
theorem reload_of_fits (scheduler : Scheduler Time) (fits : scheduler.program.length ≤ 3584)
    (now : Time) :
    scheduler.reload now =
      ⟨{ scheduler with
          machine := (scheduler.machine.reset.load scheduler.program).state
          lastKey := none
          nextCycle := now
          nextTimer := now + Clock.timerPeriod }, .ok (),
        .resetting :: .memoryInitialised ::
          (scheduler.machine.reset.load scheduler.program).log⟩ := by
  have loaded := load_reset_of_fits scheduler.machine fits
  simp only [reload, loaded]
  rfl

theorem reload_keeps (scheduler : Scheduler Time) (now : Time) :
    (scheduler.reload now).state.program = scheduler.program ∧
      (scheduler.reload now).state.digitLimit = scheduler.digitLimit ∧
      (scheduler.reload now).state.sounding = scheduler.sounding := by
  simp only [reload]
  split <;> exact ⟨rfl, rfl, rfl⟩

/-- No command changes the program, the limit on written numbers or what the window was told. -/
theorem handle_keeps (scheduler : Scheduler Time) (command : Command) (now : Time) :
    (scheduler.handle command now).state.program = scheduler.program ∧
      (scheduler.handle command now).state.digitLimit = scheduler.digitLimit ∧
      (scheduler.handle command now).state.sounding = scheduler.sounding := by
  cases command with
  | setRunning running =>
      obtain ⟨_, _, _, frame⟩ := scheduler.setRunning_frame running now
      simp only [handle, frame, and_self]
  | setKey index pressed =>
      obtain ⟨_, _, frame⟩ := scheduler.handleKey_frame index pressed
      simp only [handle, frame, and_self]
  | reset => exact scheduler.reload_keeps now
  | quit => exact ⟨rfl, rfl, rfl⟩
  | stray text => exact ⟨rfl, rfl, rfl⟩
  | unwritable reason => exact ⟨rfl, rfl, rfl⟩

/-- Whether a command is answered is known in advance. -/
theorem handle_answer (scheduler : Scheduler Time) (command : Command) (now : Time) :
    (scheduler.handle command now).answer =
      match command.failure? scheduler.program scheduler.digitLimit with
      | none => .ok ()
      | some error => .error error := by
  cases command with
  | setKey index pressed => exact scheduler.handleKey_answer index pressed
  | reset =>
      rw [handle, reload_answer, Command.failure?]
      split <;> rfl
  | setRunning running => rfl
  | quit => rfl
  | stray text => rfl
  | unwritable reason => rfl

theorem handle_error_iff {scheduler : Scheduler Time} {command : Command} {now : Time}
    {error : CommandError} :
    (scheduler.handle command now).answer = .error error ↔
      command.failure? scheduler.program scheduler.digitLimit = some error := by
  rw [handle_answer]
  cases command.failure? scheduler.program scheduler.digitLimit <;> simp

/-! ## A queue of commands -/

/-- How the commands of a queue are obeyed.  It may be left at any time. -/
inductive Drained (now : Time) : Scheduler Time → List Command →
    Outcome (Scheduler Time × List Command) CommandError Unit → Prop
  | left {scheduler : Scheduler Time} {inbox : List Command} :
      Drained now scheduler inbox ⟨(scheduler, inbox), .ok (), []⟩
  | failed {scheduler : Scheduler Time} {command : Command} {inbox : List Command}
      {error : CommandError} :
      (scheduler.handle command now).answer = .error error →
      Drained now scheduler (command :: inbox)
        ⟨((scheduler.handle command now).state, inbox), .error error,
          (scheduler.handle command now).log⟩
  | quit {scheduler : Scheduler Time} {command : Command} {inbox : List Command} :
      (scheduler.handle command now).answer = .ok () →
      (scheduler.handle command now).state.quit = true →
      Drained now scheduler (command :: inbox)
        ⟨((scheduler.handle command now).state, inbox), .ok (),
          (scheduler.handle command now).log⟩
  | further {scheduler : Scheduler Time} {command : Command} {inbox : List Command}
      {rest : Outcome (Scheduler Time × List Command) CommandError Unit} :
      (scheduler.handle command now).answer = .ok () →
      (scheduler.handle command now).state.quit = false →
      Drained now (scheduler.handle command now).state inbox rest →
      Drained now scheduler (command :: inbox)
        { rest with log := (scheduler.handle command now).log ++ rest.log }

/-- Obeying a queue is one of the ways that `Drained` lists. -/
theorem drain_drained (now : Time) (count : Nat) (scheduler : Scheduler Time)
    (inbox : List Command) :
    Drained now scheduler inbox (scheduler.drain now count inbox) := by
  induction count generalizing scheduler inbox with
  | zero => exact .left
  | succ count inductionHypothesis =>
      cases inbox with
      | nil => exact .left
      | cons command inbox =>
          simp only [drain]
          cases answer : (scheduler.handle command now).answer with
          | error error => exact .failed answer
          | ok _ =>
              cases quit : (scheduler.handle command now).state.quit with
              | true => exact .quit answer quit
              | false =>
                  exact .further answer quit
                    (inductionHypothesis (scheduler.handle command now).state inbox)

namespace Drained

variable {now : Time} {scheduler : Scheduler Time} {inbox : List Command}
  {drained : Outcome (Scheduler Time × List Command) CommandError Unit}

theorem keeps (run : Drained now scheduler inbox drained) :
    drained.state.1.program = scheduler.program ∧
      drained.state.1.digitLimit = scheduler.digitLimit ∧
      drained.state.1.sounding = scheduler.sounding := by
  induction run with
  | left => exact ⟨rfl, rfl, rfl⟩
  | failed _ => exact handle_keeps _ _ now
  | quit _ _ => exact handle_keeps _ _ now
  | @further scheduler command _ _ _ _ _ inductionHypothesis =>
      obtain ⟨program, digitLimit, sounding⟩ := scheduler.handle_keeps command now
      exact ⟨inductionHypothesis.1.trans program, inductionHypothesis.2.1.trans digitLimit,
        inductionHypothesis.2.2.trans sounding⟩

/-- What is left of a queue is its end. -/
theorem left_suffix (run : Drained now scheduler inbox drained) :
    drained.state.2 <:+ inbox := by
  induction run with
  | left => exact List.suffix_refl _
  | failed _ => exact List.suffix_cons _ _
  | quit _ _ => exact List.suffix_cons _ _
  | further _ _ _ inductionHypothesis => exact inductionHypothesis.trans (List.suffix_cons _ _)

/-- A queue fails with the error of one of its commands. -/
theorem of_error (run : Drained now scheduler inbox drained) {error : CommandError}
    (failed : drained.answer = .error error) :
    ∃ command ∈ inbox,
      command.failure? scheduler.program scheduler.digitLimit = some error := by
  induction run with
  | left => cases failed
  | @failed _ command _ _ refused =>
      cases failed
      exact ⟨command, List.mem_cons_self, handle_error_iff.mp refused⟩
  | quit _ _ => cases failed
  | @further scheduler command _ _ _ _ _ inductionHypothesis =>
      obtain ⟨program, digitLimit, _⟩ := scheduler.handle_keeps command now
      obtain ⟨later, member, failure⟩ := inductionHypothesis failed
      rw [program, digitLimit] at failure
      exact ⟨later, List.mem_cons_of_mem command member, failure⟩

end Drained

end Scheduler

end ChipEight
