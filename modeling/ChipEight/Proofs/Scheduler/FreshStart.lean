import ChipEight.Proofs.Machine.Equipment
import ChipEight.Proofs.Scheduler.Obedience

/-!
# Fresh starts

A reset leaves nothing of the session before it but the settings and the random bytes: the machine
is the one that was just switched on and given the program.  Two schedulers that differ only in what
a reset erases therefore go the same way from their first reset on.
-/

namespace ChipEight

namespace Machine

theorem load_random (clock : Hertz) (shiftUsesVy : Bool) (first second : ByteSource)
    (program : List Byte) :
    ((powerOn clock shiftUsesVy first).load program).state =
      { ((powerOn clock shiftUsesVy second).load program).state with random := first } := by
  have samePc : (powerOn clock shiftUsesVy first).pc = (powerOn clock shiftUsesVy second).pc := rfl
  rw [load, load, samePc]
  split <;> rfl

end Machine

namespace Scheduler

variable {Time : Type}

/-- Two schedulers agree on all that a reset keeps. -/
structure Matches (first second : Scheduler Time) : Prop where
  program : first.program = second.program
  clock : first.machine.clock = second.machine.clock
  shiftUsesVy : first.machine.shiftUsesVy = second.machine.shiftUsesVy
  random : first.machine.random = second.machine.random
  running : first.running = second.running
  quit : first.quit = second.quit
  sounding : first.sounding = second.sounding
  digitLimit : first.digitLimit = second.digitLimit

variable [Clock Time]

namespace Matches

variable {first second : Scheduler Time}

omit [Clock Time] in
theorem reset (alike : first.Matches second) :
    first.machine.reset = second.machine.reset := by
  rw [Machine.reset, Machine.reset, alike.clock, alike.shiftUsesVy, alike.random]

/-- A reset brings schedulers that agree on what it keeps to the same state. -/
theorem handle (alike : first.Matches second) (fits : first.program.length ≤ 3584) (now : Time) :
    first.handle .reset now = second.handle .reset now := by
  have fitsSecond : second.program.length ≤ 3584 := alike.program ▸ fits
  rw [Scheduler.handle, Scheduler.handle, reload_of_fits first fits,
    reload_of_fits second fitsSecond,
    alike.reset, alike.program, alike.running, alike.quit, alike.sounding, alike.digitLimit]

theorem performAll (alike : first.Matches second) (fits : first.program.length ≤ 3584) (now : Time)
    (later : List (Deed Time)) :
    first.performAll (.obey .reset now :: later) =
      second.performAll (.obey .reset now :: later) := by
  have handled := alike.handle fits now
  simp only [Scheduler.performAll, perform, handled]

theorem drain (alike : first.Matches second) (fits : first.program.length ≤ 3584) (now : Time)
    (count : Nat) (inbox : List Command) :
    first.drain now (count + 1) (.reset :: inbox) =
      second.drain now (count + 1) (.reset :: inbox) := by
  have handled := alike.handle fits now
  simp only [Scheduler.drain, handled]

/-- So do the turns of a run whose first command is a reset. -/
theorem turns (alike : first.Matches second) (fits : first.program.length ≤ 3584) (limit : Nat)
    (inbox : List Command) (ticks : List (Tick Time)) :
    first.turns limit (.reset :: inbox) ticks = second.turns limit (.reset :: inbox) ticks := by
  cases ticks with
  | nil => rfl
  | cons tick ticks =>
      have queue : (.reset :: inbox) ++ tick.arrivals = .reset :: (inbox ++ tick.arrivals) := rfl
      have drained := alike.drain fits tick.now (inbox ++ tick.arrivals).length
        (inbox ++ tick.arrivals)
      have turned : first.turn limit (.reset :: (inbox ++ tick.arrivals)) tick.now =
          second.turn limit (.reset :: (inbox ++ tick.arrivals)) tick.now := by
        simp only [Scheduler.turn, List.length_cons, drained]
      rw [turns_cons, turns_cons, queue, turned]

end Matches

/-- After a reset the machine is the one that was just switched on and given the program, but for
its random bytes.  No key is the last one, and both clocks start anew.  What the scheduler is told
from then on has the same effect, whatever was done before. -/
theorem reset_erases_history (scheduler : Scheduler Time)
    (fits : scheduler.program.length ≤ 3584) (now : Time) :
    let handled := scheduler.handle .reset now
    handled.answer = .ok () ∧
      (∀ random : ByteSource,
        let fresh := ((Machine.powerOn scheduler.machine.clock scheduler.machine.shiftUsesVy
          random).load scheduler.program).state
        handled.state =
          { scheduler with
            machine := { fresh with random := scheduler.machine.random }
            lastKey := none
            nextCycle := now
            nextTimer := now + Clock.timerPeriod }) ∧
      handled.state.machine.clock = scheduler.machine.clock ∧
      handled.state.machine.shiftUsesVy = scheduler.machine.shiftUsesVy ∧
      ∀ other : Scheduler Time, scheduler.Matches other →
        other.handle .reset now = handled ∧
        (∀ later : List (Deed Time),
          scheduler.performAll (.obey .reset now :: later) =
            other.performAll (.obey .reset now :: later)) ∧
        ∀ (limit : Nat) (inbox : List Command) (ticks : List (Tick Time)),
          scheduler.turns limit (.reset :: inbox) ticks =
            other.turns limit (.reset :: inbox) ticks := by
  intro handled
  have reloaded : handled = _ := scheduler.reload_of_fits fits now
  have loaded := scheduler.machine.reset.load_equipment scheduler.program
  simp only [Machine.equipment, Equipment.mk.injEq] at loaded
  obtain ⟨_, clock, shiftUsesVy⟩ := loaded
  refine ⟨by rw [reloaded], fun random => ?_, by rw [reloaded, clock, Machine.reset_clock],
    by rw [reloaded, shiftUsesVy, Machine.reset_shiftUsesVy], fun other alike => ⟨?_, ?_, ?_⟩⟩
  · have fresh := Machine.load_random scheduler.machine.clock scheduler.machine.shiftUsesVy
      scheduler.machine.random random scheduler.program
    rw [reloaded]
    simp only [Machine.reset, fresh]
  · exact (alike.handle fits now).symm
  · exact fun later => alike.performAll fits now later
  · exact fun limit inbox ticks => alike.turns fits limit inbox ticks

/-- A run that holds a key down and waits for another one is forgotten by a reset. -/
theorem reset_erases_history_waiting :
    let program : List Byte := [0xf0, 0x0a]
    let machine := ((Machine.powerOn (.whole 600) false (.ofScript [])).load program).state
    let unused : Scheduler Rat := ((start machine program true).1.begin 0).1
    let used := (unused.performAll [.obey (.setKey 3 true) 0, .cycle (1 / 600), .tick]).scheduler
    used.machine.waiting = true ∧ used.machine.keypad.isPressed 3 = true ∧
      used.lastKey = some 3 ∧ used.program.length ≤ 3584 ∧
      (used.handle .reset 1).answer = .ok () ∧
      unused.handle .reset 1 = used.handle .reset 1 ∧
      ∀ ticks : List (Tick Rat),
        used.turns 10 [.reset] ticks = unused.turns 10 [.reset] ticks := by
  intro program machine unused used
  obtain ⟨waiting, down, last, fits⟩ :
      used.machine.waiting = true ∧ used.machine.keypad.isPressed 3 = true ∧
        used.lastKey = some 3 ∧ used.program.length ≤ 3584 := by
    decide +kernel
  have alike : used.Matches unused := by
    constructor <;> decide +kernel
  obtain ⟨answered, _, _, _, same⟩ := reset_erases_history used fits 1
  obtain ⟨handled, _, goesOn⟩ := same unused alike
  exact ⟨waiting, down, last, fits, answered, handled, fun ticks => goesOn 10 [] ticks⟩

end Scheduler

end ChipEight
