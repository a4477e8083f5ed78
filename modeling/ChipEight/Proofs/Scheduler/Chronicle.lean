import ChipEight.Proofs.Scheduler.Batches
import ChipEight.Proofs.Scheduler.Commands

/-!
# Chronicles

All that a scheduler does to its machine is to run cycles, tick the timers, set keys, end waits and
load its program after a reset.  A `Chronicle` is a relation between the machine before a stretch of
work, the log of the stretch and the machine after it, which holds of each of these and of stretches
put together.  It then holds of the commands that a turn obeys and of the batches that it runs.
-/

namespace ChipEight

/-- A relation that everything a scheduler does to its machine keeps. -/
structure Chronicle (relation : Machine → List LogEvent → Machine → Prop) : Prop where
  idle (machine : Machine) (log : List LogEvent) : relation machine log machine
  join {first second third : Machine} {log later : List LogEvent} :
    relation first log second → relation second later third →
      relation first (log ++ later) third
  cycle (machine : Machine) : relation machine machine.cycle.log machine.cycle.state
  tickTimers (machine : Machine) : relation machine [] machine.tickTimers
  setKey (machine : Machine) (key : Key) (pressed : Bool) :
    relation machine [] (machine.setKey key pressed)
  endWait (machine : Machine) (index : Int) :
    relation machine (machine.endWait index).2 (machine.endWait index).1
  reload (machine : Machine) (program : List Byte) :
    relation machine
      (.resetting :: .memoryInitialised :: (machine.reset.load program).log)
      (machine.reset.load program).state

namespace Chronicle

open Scheduler

variable {Time : Type} [Clock Time] {relation : Machine → List LogEvent → Machine → Prop}

omit [Clock Time] in
theorem pressKey (chronicle : Chronicle relation) (scheduler : Scheduler Time) (key : Key) :
    relation scheduler.machine (scheduler.pressKey key).2 (scheduler.pressKey key).1.machine := by
  rw [Scheduler.pressKey]
  split
  · split
    · exact chronicle.idle _ _
    · exact chronicle.join (chronicle.idle _ [.keyEndsWait key]) (chronicle.endWait _ key.val)
  · exact chronicle.setKey _ key true

/-- A chronicle holds of every command, also of one that fails. -/
theorem handle (chronicle : Chronicle relation) (scheduler : Scheduler Time) (command : Command)
    (now : Time) :
    relation scheduler.machine (scheduler.handle command now).log
      (scheduler.handle command now).state.machine := by
  cases command with
  | setRunning running =>
      simp only [Scheduler.handle, setRunning]
      split
      · exact chronicle.idle _ _
      · split <;> exact chronicle.idle _ _
  | setKey index pressed =>
      simp only [Scheduler.handle, handleKey]
      split
      next => split <;> exact chronicle.idle _ _
      next key _ =>
        cases pressed with
        | true => exact chronicle.pressKey scheduler key
        | false => exact chronicle.setKey _ key false
  | reset =>
      have reloaded := chronicle.reload scheduler.machine scheduler.program
      simp only [Scheduler.handle, Scheduler.reload]
      split <;> exact reloaded
  | quit => exact chronicle.idle _ _
  | stray text => exact chronicle.idle _ _
  | unwritable reason => exact chronicle.idle _ _

/-- A chronicle holds of the commands that are obeyed before the queue is left. -/
theorem drained (chronicle : Chronicle relation) {now : Time} {scheduler : Scheduler Time}
    {inbox : List Command} {result : Outcome (Scheduler Time × List Command) CommandError Unit}
    (run : Drained now scheduler inbox result) :
    relation scheduler.machine result.log result.state.1.machine := by
  induction run with
  | left => exact chronicle.idle _ _
  | failed _ => exact chronicle.handle _ _ now
  | quit _ _ => exact chronicle.handle _ _ now
  | further _ _ _ inductionHypothesis =>
      exact chronicle.join (chronicle.handle _ _ now) inductionHypothesis

/-- A chronicle holds of a batch of cycles. -/
theorem batched (chronicle : Chronicle relation) {period now : Time}
    {scheduler : Scheduler Time} {batch : Batch Time}
    (run : Batched period now scheduler batch) :
    relation scheduler.machine batch.log batch.scheduler.machine := by
  induction run with
  | caughtUp _ => exact chronicle.idle _ _
  | exhausted _ => exact chronicle.idle _ _
  | awaitingKey _ _ => exact chronicle.idle _ _
  | interrupted _ _ _ => exact chronicle.cycle _
  | programEnded _ _ _ => exact chronicle.cycle _
  | further _ _ _ _ inductionHypothesis =>
      exact chronicle.join (chronicle.cycle _) inductionHypothesis

theorem ticked (chronicle : Chronicle relation) {now : Time} {scheduler : Scheduler Time}
    {batch : TimerBatch Time} (run : Ticked now scheduler batch) :
    relation scheduler.machine [] batch.scheduler.machine := by
  induction run with
  | caughtUp _ => exact chronicle.idle _ _
  | exhausted _ => exact chronicle.idle _ _
  | further _ _ inductionHypothesis =>
      exact chronicle.join (chronicle.tickTimers _) inductionHypothesis

/-- A chronicle holds of both batches of a turn, whose clocks it does not see. -/
theorem caughtUp (chronicle : Chronicle relation) {scheduler : Scheduler Time} {now : Time}
    {result : Scheduler Time × Option Ending × List LogEvent}
    (run : CaughtUp scheduler now result) :
    relation scheduler.machine result.2.2 result.1.machine := by
  rcases run.worked with ⟨same, quiet⟩ | ⟨batch, batched, log, reached⟩
  · rw [same, quiet]
    exact chronicle.idle _ _
  · obtain ⟨_, dropped⟩ := scheduler.dropLateCycles_frame now
    have instructions := chronicle.batched batched
    rw [dropped] at instructions
    rw [log]
    rcases reached with same | ⟨ticks, ticked, same⟩
    · rw [same]
      exact instructions
    · obtain ⟨_, dropped⟩ := batch.scheduler.dropLateTicks_frame now
      have timers := chronicle.ticked ticked
      rw [dropped] at timers
      rw [same, ← List.append_nil batch.log]
      exact chronicle.join instructions timers

end Chronicle

end ChipEight
