import ChipEight.Clock
import ChipEight.Machine.Load
import ChipEight.Message
import ChipEight.Text.Integer

/-!
# The scheduler

A scheduler drives a machine.  It keeps two clocks, one for instructions and one for the timers,
and obeys the commands of the window.  This module holds its state and its answer to commands: a
key event goes to the keypad or ends a wait, a reset loads the program again, and a run that is
resumed starts its clocks anew.  A command that cannot be carried out, or not be reported, fails.
-/

namespace ChipEight

/-- Why a command fails. -/
inductive CommandError where
  /-- A reset could not load the program again. -/
  | reloadFailed (error : LoadError)
  /-- The number of a key that there is not has more digits than may be written. -/
  | tooManyDigits (most : Nat)
  /-- What arrived in place of a command has no written form. -/
  | unwritable (reason : String)
  deriving DecidableEq

def CommandError.message : CommandError → String
  | .reloadFailed error => error.message
  | .tooManyDigits most => Text.unwritableMessage most
  | .unwritable reason => reason

/-- What a scheduler keeps from one turn to the next. -/
structure Scheduler (Time : Type) where
  machine : Machine
  /-- The program that a reset loads again. -/
  program : List Byte
  /-- Whether instructions are run and timers tick. -/
  running : Bool
  /-- Whether the end of the run was asked for. -/
  quit : Bool
  /-- The key that was pressed last, unless it was released. -/
  lastKey : Option Key
  /-- Whether the window was last told that the sound is on. -/
  sounding : Bool
  /-- When the next instruction is due. -/
  nextCycle : Time
  /-- When the next tick of the timers is due. -/
  nextTimer : Time
  /-- The greatest number of digits in which a number can be written, if there is one. -/
  digitLimit : Option Nat

/-- The rate at which a scheduler runs a machine, and a report if it is not the one asked for. -/
def Hertz.clampReport (asked : Hertz) : List LogEvent :=
  if asked.isWhole asked.clamp then [] else [.rateClamped asked asked.clamp]

namespace Scheduler

variable {Time : Type} [Clock Time]

/-- A scheduler for a machine, whose clock rate is brought within its bounds. -/
def start (machine : Machine) (program : List Byte) (running : Bool)
    (digitLimit : Option Nat := some Text.mostDigits) : Scheduler Time × List LogEvent :=
  ({ machine := { machine with clock := .whole machine.clock.clamp }
     program := program
     running := running
     quit := false
     lastKey := none
     sounding := false
     nextCycle := Clock.origin
     nextTimer := Clock.origin
     digitLimit := digitLimit }, machine.clock.clampReport)

/-- Both clocks start anew: an instruction is due now, and a tick of the timers one period
later. -/
def restartClocks (scheduler : Scheduler Time) (now : Time) : Scheduler Time :=
  { scheduler with nextCycle := now, nextTimer := now + Clock.timerPeriod }

/-- Obeys a press of a key.  While the program waits, a press of any key but the last one ends the
wait and is not recorded on the keypad. -/
def pressKey (scheduler : Scheduler Time) (key : Key) (logger : Logger := .complete) :
    Scheduler Time × List LogEvent :=
  if scheduler.machine.waiting then
    if scheduler.lastKey = some key then
      ({ scheduler with lastKey := some key }, [])
    else
      let (machine, log) := scheduler.machine.endWait key.val logger
      ({ scheduler with machine := machine, lastKey := some key },
        logger.record (.keyEndsWait key) ++ log)
  else
    ({ scheduler with machine := scheduler.machine.setKey key true, lastKey := some key }, [])

/-- Obeys a release of a key.  It always reaches the keypad, and while the program waits it lets
every key end the wait. -/
def releaseKey (scheduler : Scheduler Time) (key : Key) : Scheduler Time :=
  { scheduler with
    machine := scheduler.machine.setKey key false
    lastKey :=
      if scheduler.machine.waiting ∨ scheduler.lastKey = some key then none
      else scheduler.lastKey }

/-- Obeys a key event.  One that names no key is reported and ignored, and fails if the report
cannot be written. -/
def handleKey (scheduler : Scheduler Time) (index : Int) (pressed : Bool)
    (logger : Logger := .complete) : Outcome (Scheduler Time) CommandError Unit :=
  match Key.ofIndex? index with
  | none =>
      match Text.requireWritable scheduler.digitLimit index with
      | .ok () => ⟨scheduler, .ok (), logger.record (.invalidKey index)⟩
      | .error most => ⟨scheduler, .error (.tooManyDigits most), []⟩
  | some key =>
      if pressed then
        let (handled, log) := scheduler.pressKey key logger
        ⟨handled, .ok (), log⟩
      else
        ⟨scheduler.releaseKey key, .ok (), []⟩

/-- Pauses or resumes.  A run that is resumed does not catch up with the pause. -/
def setRunning (scheduler : Scheduler Time) (running : Bool) (now : Time)
    (logger : Logger := .complete) : Scheduler Time × List LogEvent :=
  if running = scheduler.running then (scheduler, [])
  else if running then
    ({ scheduler with running := true }.restartClocks now, logger.record .resumed)
  else ({ scheduler with running := false }, logger.record .paused)

/-- Resets the machine and loads the program again.  If it is too large, the machine stays without
a program and the clocks are not touched. -/
def reload (scheduler : Scheduler Time) (now : Time) (logger : Logger := .complete) :
    Outcome (Scheduler Time) CommandError Unit :=
  let loaded := scheduler.machine.reset.load scheduler.program logger
  let log := logger.record .resetting ++ logger.record .memoryInitialised ++ loaded.log
  let reset := { scheduler with machine := loaded.state }
  match loaded.answer with
  | .ok () => ⟨{ reset with lastKey := none }.restartClocks now, .ok (), log⟩
  | .error error => ⟨reset, .error (.reloadFailed error), log⟩

/-- Obeys a command.  What is no command is reported and ignored, and fails if it cannot be
written. -/
def handle (scheduler : Scheduler Time) (command : Command) (now : Time)
    (logger : Logger := .complete) : Outcome (Scheduler Time) CommandError Unit :=
  match command with
  | .setRunning running =>
      let (handled, log) := scheduler.setRunning running now logger
      ⟨handled, .ok (), log⟩
  | .setKey index pressed => scheduler.handleKey index pressed logger
  | .reset => scheduler.reload now logger
  | .quit => ⟨{ scheduler with quit := true }, .ok (), logger.record .quitRequested⟩
  | .stray text => ⟨scheduler, .ok (), logger.record (.unknownCommand text)⟩
  | .unwritable reason => ⟨scheduler, .error (.unwritable reason), []⟩

/-- Obeys the commands of a queue in turn, at most `count` of them and none after a request to
quit or one that fails.  What is left of the queue is kept beside the scheduler. -/
def drain (now : Time) (scheduler : Scheduler Time) (count : Nat) (inbox : List Command)
    (logger : Logger := .complete) : Outcome (Scheduler Time × List Command) CommandError Unit :=
  match count, inbox with
  | 0, inbox => ⟨(scheduler, inbox), .ok (), []⟩
  | _ + 1, [] => ⟨(scheduler, []), .ok (), []⟩
  | count + 1, command :: inbox =>
      let handled := scheduler.handle command now logger
      match handled.answer with
      | .error error => ⟨(handled.state, inbox), .error error, handled.log⟩
      | .ok () =>
          if handled.state.quit then
            ⟨(handled.state, inbox), .ok (), handled.log⟩
          else
            let rest := drain now handled.state count inbox logger
            { rest with log := handled.log ++ rest.log }

end Scheduler

end ChipEight
