import ChipEight.Machine.Execute
import ChipEight.Scheduler

/-!
# Catching up with the clocks

A turn of the scheduler runs every instruction and every tick of the timers that fell due since
the turn before it.  A clock that is late by more than a tenth of a second is set to the present,
so that a long pause is not followed by a burst.  Both loops are given a limit on their steps, and
say so if they reach it.  A clock that moves on by each period catches up after few steps.
One whose readings are so great that periods are lost in rounding never does, and its batch goes on
until the program ends, faults or waits.
-/

namespace ChipEight

/-- How a batch of instructions came to its end. -/
inductive BatchEnding where
  | caughtUp
  | awaitingKey
  | programEnded
  | interrupted (interruption : Interruption)
  /-- The limit was reached while an instruction was due. -/
  | exhausted
  deriving DecidableEq

/-- The scheduler after a batch of instructions, the number of cycles it ran, and what they
reported. -/
structure Batch (Time : Type) where
  scheduler : Scheduler Time
  ending : BatchEnding
  cycles : Nat
  log : List LogEvent

/-- The scheduler after the ticks of the timers that were due, and their number. -/
structure TimerBatch (Time : Type) where
  scheduler : Scheduler Time
  caughtUp : Bool
  ticks : Nat

namespace Scheduler

variable {Time : Type} [Clock Time]

def period (scheduler : Scheduler Time) : Time :=
  Clock.cyclePeriod scheduler.machine.clock.clamp

/-- Runs one instruction and moves its clock on. -/
def cycle (scheduler : Scheduler Time) (period : Time) (logger : Logger := .complete) :
    Outcome (Scheduler Time) Interruption Bool :=
  let cycled := scheduler.machine.cycle logger
  ⟨{ scheduler with machine := cycled.state, nextCycle := scheduler.nextCycle + period },
    cycled.answer, cycled.log⟩

/-- Runs instructions until the next one is not yet due or the program cannot go on.  `cycles` and
`recent` are what the batch has run and reported before, the latest report first. -/
def cycleUntil (period now : Time) (limit cycles : Nat) (recent : List LogEvent)
    (scheduler : Scheduler Time) (logger : Logger := .complete) : Batch Time :=
  match limit with
  | 0 =>
      ⟨scheduler, if scheduler.nextCycle ≤ now then .exhausted else .caughtUp, cycles,
        recent.reverse⟩
  | limit + 1 =>
      if scheduler.nextCycle ≤ now then
        if scheduler.machine.waiting then
          ⟨{ scheduler with nextCycle := now + period }, .awaitingKey, cycles, recent.reverse⟩
        else
          let cycled := scheduler.cycle period logger
          let recent := cycled.log.reverse ++ recent
          match cycled.answer with
          | .error interruption =>
              ⟨cycled.state, .interrupted interruption, cycles + 1, recent.reverse⟩
          | .ok true => ⟨cycled.state, .programEnded, cycles + 1, recent.reverse⟩
          | .ok false => cycleUntil period now limit (cycles + 1) recent cycled.state logger
      else
        ⟨scheduler, .caughtUp, cycles, recent.reverse⟩

/-- What was run and reported before a batch stands before what it runs and reports. -/
theorem cycleUntil_before (period now : Time) (limit cycles : Nat) (recent : List LogEvent)
    (scheduler : Scheduler Time) :
    cycleUntil period now limit cycles recent scheduler =
      let batch := cycleUntil period now limit 0 [] scheduler
      { batch with cycles := cycles + batch.cycles, log := recent.reverse ++ batch.log } := by
  induction limit generalizing cycles recent scheduler with
  | zero => simp [cycleUntil]
  | succ limit inductionHypothesis =>
      by_cases due : scheduler.nextCycle ≤ now
      · by_cases waiting : scheduler.machine.waiting
        · simp [cycleUntil, due, waiting]
        · simp only [cycleUntil, due, waiting, if_true]
          cases answer : (scheduler.cycle period).answer with
          | error interruption => simp
          | ok ended =>
              cases ended with
              | true => simp
              | false =>
                  simp only
                  rw [inductionHypothesis (cycles + 1), inductionHypothesis (0 + 1)]
                  simp [Nat.add_assoc]
      · simp [cycleUntil, due]

def runInstructions (limit : Nat) (scheduler : Scheduler Time) (now : Time)
    (logger : Logger := .complete) : Batch Time :=
  let onTime :=
    if scheduler.nextCycle < now - Clock.greatestLag then { scheduler with nextCycle := now }
    else scheduler
  cycleUntil scheduler.period now limit 0 [] onTime logger

/-- One tick of the timers, which moves their clock on. -/
def tick (scheduler : Scheduler Time) : Scheduler Time :=
  { scheduler with
    machine := scheduler.machine.tickTimers
    nextTimer := scheduler.nextTimer + Clock.timerPeriod }

/-- Ticks the timers until the next tick is not yet due.  `ticks` counts those before. -/
def tickUntil (now : Time) : (limit ticks : Nat) → Scheduler Time → TimerBatch Time
  | 0, ticks, scheduler => ⟨scheduler, decide (¬ scheduler.nextTimer ≤ now), ticks⟩
  | limit + 1, ticks, scheduler =>
      if scheduler.nextTimer ≤ now then tickUntil now limit (ticks + 1) scheduler.tick
      else ⟨scheduler, true, ticks⟩

/-- The ticks before a batch are added to those that it makes. -/
theorem tickUntil_before (now : Time) (limit ticks : Nat) (scheduler : Scheduler Time) :
    tickUntil now limit ticks scheduler =
      let batch := tickUntil now limit 0 scheduler
      { batch with ticks := ticks + batch.ticks } := by
  induction limit generalizing ticks scheduler with
  | zero => simp [tickUntil]
  | succ limit inductionHypothesis =>
      by_cases due : scheduler.nextTimer ≤ now
      · simp only [tickUntil, due, if_true]
        rw [inductionHypothesis (ticks + 1), inductionHypothesis (0 + 1)]
        simp [Nat.add_assoc]
      · simp [tickUntil, due]

def runTimers (limit : Nat) (scheduler : Scheduler Time) (now : Time) : TimerBatch Time :=
  let onTime :=
    if scheduler.nextTimer < now - Clock.greatestLag then { scheduler with nextTimer := now }
    else scheduler
  tickUntil now limit 0 onTime

end Scheduler

end ChipEight
