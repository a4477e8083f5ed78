import ChipEight.Scheduler.Turn

/-!
# Batches

The two loops that catch up with the clocks, as relations between the scheduler before a batch and
the batch.  A relation follows the steps of its loop and leaves the limit out, so that what a batch
keeps is shown by induction on it.  A batch moves its own clock and works on the machine;
`catchUp_frame` says that it leaves everything else alone.
-/

namespace ChipEight.Scheduler

variable {Time : Type} [Clock Time]

/-! ## Batches of instructions -/

/-- How a batch of instructions goes on from a scheduler. -/
inductive Batched (period now : Time) : Scheduler Time → Batch Time → Prop
  | caughtUp {scheduler : Scheduler Time} :
      ¬ scheduler.nextCycle ≤ now →
      Batched period now scheduler ⟨scheduler, .caughtUp, 0, []⟩
  | exhausted {scheduler : Scheduler Time} :
      scheduler.nextCycle ≤ now →
      Batched period now scheduler ⟨scheduler, .exhausted, 0, []⟩
  | awaitingKey {scheduler : Scheduler Time} :
      scheduler.nextCycle ≤ now → scheduler.machine.waiting = true →
      Batched period now scheduler
        ⟨{ scheduler with nextCycle := now + period }, .awaitingKey, 0, []⟩
  | interrupted {scheduler : Scheduler Time} {interruption : Interruption} :
      scheduler.nextCycle ≤ now → scheduler.machine.waiting = false →
      scheduler.machine.cycle.answer = .error interruption →
      Batched period now scheduler
        ⟨(scheduler.cycle period).state, .interrupted interruption, 1,
          scheduler.machine.cycle.log⟩
  | programEnded {scheduler : Scheduler Time} :
      scheduler.nextCycle ≤ now → scheduler.machine.waiting = false →
      scheduler.machine.cycle.answer = .ok true →
      Batched period now scheduler
        ⟨(scheduler.cycle period).state, .programEnded, 1, scheduler.machine.cycle.log⟩
  | further {scheduler : Scheduler Time} {rest : Batch Time} :
      scheduler.nextCycle ≤ now → scheduler.machine.waiting = false →
      scheduler.machine.cycle.answer = .ok false →
      Batched period now (scheduler.cycle period).state rest →
      Batched period now scheduler
        { rest with
          cycles := 1 + rest.cycles
          log := scheduler.machine.cycle.log ++ rest.log }

/-- The loop makes one of the steps of `Batched` each time, until its limit. -/
theorem cycleUntil_batched (period now : Time) (limit : Nat) (scheduler : Scheduler Time) :
    Batched period now scheduler (cycleUntil period now limit 0 [] scheduler) := by
  induction limit generalizing scheduler with
  | zero =>
      by_cases due : scheduler.nextCycle ≤ now
      · simpa [cycleUntil, due] using Batched.exhausted due
      · simpa [cycleUntil, due] using Batched.caughtUp due
  | succ limit inductionHypothesis =>
      by_cases due : scheduler.nextCycle ≤ now
      · cases waiting : scheduler.machine.waiting with
        | true => simpa [cycleUntil, due, waiting] using Batched.awaitingKey due waiting
        | false =>
            simp only [cycleUntil, due, waiting, if_true, Bool.false_eq_true, if_false]
            cases answer : scheduler.machine.cycle.answer with
            | error interruption =>
                simpa [cycle, answer] using Batched.interrupted due waiting answer
            | ok ended =>
                cases ended with
                | true => simpa [cycle, answer] using Batched.programEnded due waiting answer
                | false =>
                    have rest := inductionHypothesis (scheduler.cycle period).state
                    rw [cycleUntil_before]
                    simpa [cycle, answer] using Batched.further due waiting answer rest
      · simpa [cycleUntil, due] using Batched.caughtUp due

/-- A batch changes the machine and the time of the next cycle and nothing else. -/
theorem Batched.frame {period now : Time} {scheduler : Scheduler Time} {batch : Batch Time}
    (batched : Batched period now scheduler batch) :
    ∃ machine due, batch.scheduler =
      { scheduler with machine := machine, nextCycle := due } := by
  induction batched with
  | caughtUp _ => exact ⟨_, _, rfl⟩
  | exhausted _ => exact ⟨_, _, rfl⟩
  | awaitingKey _ _ => exact ⟨_, _, rfl⟩
  | interrupted _ _ _ => exact ⟨_, _, rfl⟩
  | programEnded _ _ _ => exact ⟨_, _, rfl⟩
  | further _ _ _ _ inductionHypothesis => exact inductionHypothesis

/-- The scheduler whose next instruction is due now if it was due too long ago. -/
def dropLateCycles (scheduler : Scheduler Time) (now : Time) : Scheduler Time :=
  if scheduler.nextCycle < now - Clock.greatestLag then { scheduler with nextCycle := now }
  else scheduler

theorem dropLateCycles_frame (scheduler : Scheduler Time) (now : Time) :
    ∃ due, scheduler.dropLateCycles now = { scheduler with nextCycle := due } := by
  rw [dropLateCycles]
  split
  · exact ⟨now, rfl⟩
  · exact ⟨scheduler.nextCycle, rfl⟩

theorem runInstructions_batched (limit : Nat) (scheduler : Scheduler Time) (now : Time) :
    Batched scheduler.period now (scheduler.dropLateCycles now)
      (scheduler.runInstructions limit now) :=
  cycleUntil_batched scheduler.period now limit (scheduler.dropLateCycles now)

/-! ## Batches of ticks -/

/-- How the ticks of the timers go on from a scheduler. -/
inductive Ticked (now : Time) : Scheduler Time → TimerBatch Time → Prop
  | caughtUp {scheduler : Scheduler Time} :
      ¬ scheduler.nextTimer ≤ now → Ticked now scheduler ⟨scheduler, true, 0⟩
  | exhausted {scheduler : Scheduler Time} :
      scheduler.nextTimer ≤ now → Ticked now scheduler ⟨scheduler, false, 0⟩
  | further {scheduler : Scheduler Time} {rest : TimerBatch Time} :
      scheduler.nextTimer ≤ now → Ticked now scheduler.tick rest →
      Ticked now scheduler { rest with ticks := 1 + rest.ticks }

theorem tickUntil_ticked (now : Time) (limit : Nat) (scheduler : Scheduler Time) :
    Ticked now scheduler (tickUntil now limit 0 scheduler) := by
  induction limit generalizing scheduler with
  | zero =>
      by_cases due : scheduler.nextTimer ≤ now
      · simpa [tickUntil, due] using Ticked.exhausted due
      · simpa [tickUntil, due] using Ticked.caughtUp due
  | succ limit inductionHypothesis =>
      by_cases due : scheduler.nextTimer ≤ now
      · rw [tickUntil, if_pos due, tickUntil_before]
        exact .further due (inductionHypothesis scheduler.tick)
      · simpa [tickUntil, due] using Ticked.caughtUp due

theorem Ticked.frame {now : Time} {scheduler : Scheduler Time} {batch : TimerBatch Time}
    (ticked : Ticked now scheduler batch) :
    ∃ machine due, batch.scheduler =
      { scheduler with machine := machine, nextTimer := due } := by
  induction ticked with
  | caughtUp _ => exact ⟨_, _, rfl⟩
  | exhausted _ => exact ⟨_, _, rfl⟩
  | further _ _ inductionHypothesis => exact inductionHypothesis

/-- The scheduler whose next tick is due now if it was due too long ago. -/
def dropLateTicks (scheduler : Scheduler Time) (now : Time) : Scheduler Time :=
  if scheduler.nextTimer < now - Clock.greatestLag then { scheduler with nextTimer := now }
  else scheduler

theorem dropLateTicks_frame (scheduler : Scheduler Time) (now : Time) :
    ∃ due, scheduler.dropLateTicks now = { scheduler with nextTimer := due } := by
  rw [dropLateTicks]
  split
  · exact ⟨now, rfl⟩
  · exact ⟨scheduler.nextTimer, rfl⟩

theorem runTimers_ticked (limit : Nat) (scheduler : Scheduler Time) (now : Time) :
    Ticked now (scheduler.dropLateTicks now) (scheduler.runTimers limit now) :=
  tickUntil_ticked now limit (scheduler.dropLateTicks now)

/-! ## Both loops of a turn -/

/-- What catching up with both clocks comes to.  The timers tick unless a batch of instructions was
cut short. -/
inductive CaughtUp (scheduler : Scheduler Time) (now : Time) :
    Scheduler Time × Option Ending × List LogEvent → Prop
  | paused :
      scheduler.running = false → CaughtUp scheduler now (scheduler, none, [])
  | interrupted {batch : Batch Time} {interruption : Interruption} :
      scheduler.running = true →
      Batched scheduler.period now (scheduler.dropLateCycles now) batch →
      batch.ending = .interrupted interruption →
      CaughtUp scheduler now (batch.scheduler, some interruption.ending, batch.log)
  | cyclesExhausted {batch : Batch Time} :
      scheduler.running = true →
      Batched scheduler.period now (scheduler.dropLateCycles now) batch →
      batch.ending = .exhausted →
      CaughtUp scheduler now (batch.scheduler, some .exhausted, batch.log)
  | ticksExhausted {batch : Batch Time} {ticks : TimerBatch Time} :
      scheduler.running = true →
      Batched scheduler.period now (scheduler.dropLateCycles now) batch →
      Ticked now (batch.scheduler.dropLateTicks now) ticks →
      CaughtUp scheduler now (ticks.scheduler, some .exhausted, batch.log)
  | programEnded {batch : Batch Time} {ticks : TimerBatch Time} :
      scheduler.running = true →
      Batched scheduler.period now (scheduler.dropLateCycles now) batch →
      batch.ending = .programEnded →
      Ticked now (batch.scheduler.dropLateTicks now) ticks → ticks.caughtUp = true →
      CaughtUp scheduler now (ticks.scheduler, some .programEnded, batch.log)
  | goesOn {batch : Batch Time} {ticks : TimerBatch Time} :
      scheduler.running = true →
      Batched scheduler.period now (scheduler.dropLateCycles now) batch →
      batch.ending = .caughtUp ∨ batch.ending = .awaitingKey →
      Ticked now (batch.scheduler.dropLateTicks now) ticks → ticks.caughtUp = true →
      CaughtUp scheduler now (ticks.scheduler, none, batch.log)

/-- The timers run only behind a batch of instructions that goes on or ends the program. -/
theorem catchUp_caughtUp (limit : Nat) (scheduler : Scheduler Time) (now : Time) :
    CaughtUp scheduler now (scheduler.catchUp limit now) := by
  cases running : scheduler.running with
  | false =>
      simp only [catchUp, running, Bool.false_eq_true, if_false]
      exact .paused running
  | true =>
      have batched := scheduler.runInstructions_batched limit now
      simp only [catchUp, running, if_true]
      generalize scheduler.runInstructions limit now = batch at batched ⊢
      have ticked := batch.scheduler.runTimers_ticked limit now
      generalize batch.scheduler.runTimers limit now = ticks at ticked ⊢
      cases ending : batch.ending with
      | interrupted interruption => exact .interrupted running batched ending
      | exhausted => exact .cyclesExhausted running batched ending
      | caughtUp =>
          cases caught : ticks.caughtUp with
          | true => exact .goesOn running batched (Or.inl ending) ticked caught
          | false => exact .ticksExhausted running batched ticked
      | awaitingKey =>
          cases caught : ticks.caughtUp with
          | true => exact .goesOn running batched (Or.inr ending) ticked caught
          | false => exact .ticksExhausted running batched ticked
      | programEnded =>
          cases caught : ticks.caughtUp with
          | true => exact .programEnded running batched ending ticked caught
          | false => exact .ticksExhausted running batched ticked

theorem CaughtUp.ending_cases {scheduler caughtUp : Scheduler Time} {now : Time}
    {ending : Option Ending} {log : List LogEvent}
    (run : CaughtUp scheduler now (caughtUp, ending, log)) :
    ending = none ∨ ending = some .programEnded ∨ ending = some .exhausted ∨
      ∃ interruption : Interruption, ending = some interruption.ending := by
  generalize shape : (caughtUp, ending, log) = result at run
  cases run <;> cases shape
  case paused => exact Or.inl rfl
  case interrupted interruption _ _ _ => exact Or.inr (Or.inr (Or.inr ⟨interruption, rfl⟩))
  case cyclesExhausted => exact Or.inr (Or.inr (Or.inl rfl))
  case ticksExhausted => exact Or.inr (Or.inr (Or.inl rfl))
  case programEnded => exact Or.inr (Or.inl rfl)
  case goesOn => exact Or.inl rfl

/-- Whatever it comes to, catching up is a batch of instructions and maybe ticks after it. -/
theorem CaughtUp.worked {scheduler : Scheduler Time} {now : Time}
    {result : Scheduler Time × Option Ending × List LogEvent}
    (caughtUp : CaughtUp scheduler now result) :
    (result.1 = scheduler ∧ result.2.2 = []) ∨
      ∃ batch, Batched scheduler.period now (scheduler.dropLateCycles now) batch ∧
        result.2.2 = batch.log ∧
        (result.1 = batch.scheduler ∨
          ∃ ticks, Ticked now (batch.scheduler.dropLateTicks now) ticks ∧
            result.1 = ticks.scheduler) := by
  cases caughtUp with
  | paused _ => exact Or.inl ⟨rfl, rfl⟩
  | interrupted _ batched _ => exact Or.inr ⟨_, batched, rfl, Or.inl rfl⟩
  | cyclesExhausted _ batched _ => exact Or.inr ⟨_, batched, rfl, Or.inl rfl⟩
  | ticksExhausted _ batched ticked =>
      exact Or.inr ⟨_, batched, rfl, Or.inr ⟨_, ticked, rfl⟩⟩
  | programEnded _ batched _ ticked _ =>
      exact Or.inr ⟨_, batched, rfl, Or.inr ⟨_, ticked, rfl⟩⟩
  | goesOn _ batched _ ticked _ =>
      exact Or.inr ⟨_, batched, rfl, Or.inr ⟨_, ticked, rfl⟩⟩

/-- To catch up changes the machine and the two due times and nothing else. -/
theorem CaughtUp.frame {scheduler : Scheduler Time} {now : Time}
    {result : Scheduler Time × Option Ending × List LogEvent}
    (caughtUp : CaughtUp scheduler now result) :
    ∃ machine cycleDue timerDue, result.1 =
      { scheduler with machine := machine, nextCycle := cycleDue, nextTimer := timerDue } := by
  rcases caughtUp.worked with ⟨same, _⟩ | ⟨batch, batched, _, reached⟩
  · exact ⟨_, _, _, same⟩
  · obtain ⟨late, dropped⟩ := scheduler.dropLateCycles_frame now
    obtain ⟨machine, cycleDue, ran⟩ := batched.frame
    rw [dropped] at ran
    rcases reached with same | ⟨ticks, ticked, same⟩
    · exact ⟨machine, cycleDue, scheduler.nextTimer, same.trans ran⟩
    · obtain ⟨lateTicks, droppedTicks⟩ := batch.scheduler.dropLateTicks_frame now
      obtain ⟨after, timerDue, moved⟩ := ticked.frame
      exact ⟨after, cycleDue, timerDue, by rw [same, moved, droppedTicks, ran]⟩

end ChipEight.Scheduler
