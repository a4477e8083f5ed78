import ChipEight.Proofs.Machine.Equipment
import ChipEight.Proofs.Scheduler.Batches
import Mathlib.Logic.Function.Iterate
import Mathlib.Order.Bounds.Basic

/-!
# Due times

A clock is due at a first time and one period after the other from then on.  The loops that catch up
with a clock take one step for each due time that has come, so that it does not matter in how many
calls they take them: `steps_ignore_cuts` counts the steps by the last call alone.  Due times are
sums as the clock makes them, rounded or not, and of their order only transitivity is used.
-/

namespace ChipEight

section DueTimes

variable {Time : Type} [Clock Time]

/-- The time at which a clock is due after some steps. -/
def dueAfter (first period : Time) : Nat → Time
  | 0 => first
  | steps + 1 => dueAfter first period steps + period

theorem dueAfter_add (first period : Time) (steps more : Nat) :
    dueAfter first period (steps + more) = dueAfter (dueAfter first period steps) period more := by
  induction more with
  | zero => rfl
  | succ more inductionHypothesis => exact congrArg (· + period) inductionHypothesis

/-- A clock is due up to a number of steps, the least after which its time has not yet come. -/
def DueUntil (first period now : Time) (steps : Nat) : Prop :=
  IsLeast {steps | ¬ dueAfter first period steps ≤ now} steps

/-- A clock has been moved on by some steps, all of them due by now. -/
structure MovedOn (first period now : Time) (steps : Nat) (left : Time) : Prop where
  due : ∀ earlier < steps, dueAfter first period earlier ≤ now
  left : left = dueAfter first period steps

variable {first period now left : Time} {steps count : Nat}

/-- What remains of the due times behind some steps. -/
theorem DueUntil.rest (dueUntil : DueUntil first period now count) (within : steps ≤ count) :
    DueUntil (dueAfter first period steps) period now (count - steps) := by
  constructor
  · rw [Set.mem_ofPred_eq, ← dueAfter_add, Nat.add_sub_cancel' within]
    exact dueUntil.1
  · intro more notYet
    rw [Set.mem_ofPred_eq, ← dueAfter_add] at notYet
    exact Nat.sub_le_iff_le_add'.mpr (dueUntil.2 notYet)

namespace MovedOn

theorem none : MovedOn first period now 0 first :=
  ⟨fun _ before => absurd before (Nat.not_lt_zero _), rfl⟩

theorem step (due : first ≤ now) (rest : MovedOn (first + period) period now steps left) :
    MovedOn first period now (1 + steps) left := by
  constructor
  · intro earlier before
    cases earlier with
    | zero => exact due
    | succ earlier =>
        rw [Nat.add_comm earlier 1, dueAfter_add]
        exact rest.due earlier (by omega)
  · rw [dueAfter_add]
    exact rest.left

theorem dueUntil (moved : MovedOn first period now steps left) (caughtUp : ¬ left ≤ now) :
    DueUntil first period now steps := by
  constructor
  · rw [Set.mem_ofPred_eq, ← moved.left]
    exact caughtUp
  · intro other notYet
    by_contra before
    exact notYet (moved.due other (Nat.lt_of_not_le before))

variable {latest : Time}

/-- A clock that is moved on for an earlier reading does not get ahead of a later one. -/
theorem steps_le (moved : MovedOn first period now steps left)
    (later : ∀ time, time ≤ now → time ≤ latest) (dueUntil : DueUntil first period latest count) :
    steps ≤ count := by
  by_contra beyond
  exact dueUntil.1 (later _ (moved.due count (Nat.lt_of_not_le beyond)))

theorem steps_lt (moved : MovedOn first period now steps left)
    (later : ∀ time, time ≤ now → time ≤ latest) (stillDue : left ≤ now)
    (dueUntil : DueUntil first period latest count) : steps < count := by
  refine Nat.lt_of_le_of_ne (moved.steps_le later dueUntil) ?_
  rintro rfl
  rw [moved.left] at stillDue
  exact dueUntil.1 (later _ stillDue)

end MovedOn

/-! ## Calls of a loop -/

/-- A clock is moved on by calls of a loop at some times, where a call stops at its limit or when
the clock is no longer due. -/
inductive CaughtUpAt (limit : Nat) (period : Time) : Time → List Time → Nat → Time → Prop
  | none {due : Time} : CaughtUpAt limit period due [] 0 due
  | call {due now middle left : Time} {times : List Time} {steps more : Nat} :
      MovedOn due period now steps middle → (middle ≤ now → steps = limit) →
      CaughtUpAt limit period middle times more left →
      CaughtUpAt limit period due (now :: times) (steps + more) left

/-- Whatever the calls, they take as many steps as are due at the last of them. -/
theorem CaughtUpAt.total (transitive : ∀ a b c : Time, a ≤ b → b ≤ c → a ≤ c) {limit : Nat}
    {due latest : Time} {times : List Time} (fits : count ≤ limit)
    (calls : CaughtUpAt limit period due times steps left) (ordered : times.Pairwise (· ≤ ·))
    (last : times.getLast? = some latest) (dueUntil : DueUntil due period latest count) :
    steps = count ∧ left = dueAfter due period count := by
  induction calls generalizing count with
  | none => cases last
  | @call due now middle left times steps more moved stopped rest inductionHypothesis =>
      obtain ⟨first, orderedRest⟩ := List.pairwise_cons.mp ordered
      have later : ∀ time, time ≤ now → time ≤ latest := by
        intro time past
        rcases List.mem_cons.mp (List.mem_of_getLast? last) with rfl | member
        · exact past
        · exact transitive time now latest past (first latest member)
      have caughtUp : ¬ middle ≤ now := by
        intro stillDue
        have short := moved.steps_lt later stillDue dueUntil
        rw [stopped stillDue] at short
        exact absurd fits (Nat.not_le.mpr short)
      cases times with
      | nil =>
          cases rest
          obtain rfl : now = latest := Option.some.inj last
          obtain rfl := (moved.dueUntil caughtUp).unique dueUntil
          exact ⟨rfl, moved.left⟩
      | cons next times =>
          have within := moved.steps_le later dueUntil
          have dueRest := dueUntil.rest within
          rw [← moved.left] at dueRest
          obtain ⟨total, reached⟩ :=
            inductionHypothesis ((Nat.sub_le count steps).trans fits) orderedRest last dueRest
          constructor
          · rw [total, Nat.add_sub_cancel' within]
          · rw [reached, moved.left, ← dueAfter_add, Nat.add_sub_cancel' within]

end DueTimes

/-- The program neither waits nor faults nor ends. -/
def BatchEnding.Unhindered (ending : BatchEnding) : Prop :=
  ending = .caughtUp ∨ ending = .exhausted

namespace Scheduler

variable {Time : Type} [Clock Time]

/-! ## Ticks of the timers -/

section Ticks

variable {now : Time} {scheduler : Scheduler Time} {batch : TimerBatch Time}

/-- A batch of ticks moves the timer on by one period for each tick. -/
theorem Ticked.movedOn (ticked : Ticked now scheduler batch) :
    MovedOn scheduler.nextTimer Clock.timerPeriod now batch.ticks batch.scheduler.nextTimer := by
  induction ticked with
  | caughtUp _ => exact .none
  | exhausted _ => exact .none
  | further due _ inductionHypothesis => exact .step due inductionHypothesis

theorem Ticked.caughtUp_iff (ticked : Ticked now scheduler batch) :
    batch.caughtUp = true ↔ ¬ batch.scheduler.nextTimer ≤ now := by
  induction ticked with
  | caughtUp notYet => exact iff_of_true rfl notYet
  | exhausted due => exact iff_of_false Bool.false_ne_true (not_not_intro due)
  | further _ _ inductionHypothesis => exact inductionHypothesis

theorem Ticked.machine (ticked : Ticked now scheduler batch) :
    batch.scheduler.machine = Machine.tickTimers^[batch.ticks] scheduler.machine := by
  induction ticked with
  | caughtUp _ => rfl
  | exhausted _ => rfl
  | further _ _ inductionHypothesis =>
      rw [Nat.add_comm, Function.iterate_succ_apply]
      exact inductionHypothesis

/-- A batch is cut short only after as many ticks as it was allowed. -/
theorem tickUntil_exhausted (now : Time) (limit : Nat) (scheduler : Scheduler Time)
    (exhausted : (tickUntil now limit 0 scheduler).caughtUp = false) :
    (tickUntil now limit 0 scheduler).ticks = limit := by
  induction limit generalizing scheduler with
  | zero => rfl
  | succ limit inductionHypothesis =>
      by_cases due : scheduler.nextTimer ≤ now
      · simp only [tickUntil, if_pos due, tickUntil_before now limit 1] at exhausted ⊢
        rw [inductionHypothesis scheduler.tick exhausted, Nat.add_comm]
      · simp [tickUntil, due] at exhausted

end Ticks

/-- Calls of the loop that ticks the timers.  Each finds their clock where the call before has left
it, and not too late to be caught up with.  What else happens between two calls is left open. -/
inductive TimerCalls (limit : Nat) : Time → List Time → Nat → Time → Prop
  | none {due : Time} : TimerCalls limit due [] 0 due
  | call {scheduler : Scheduler Time} {now left : Time} {times : List Time} {ticks : Nat} :
      ¬ scheduler.nextTimer < now - Clock.greatestLag →
      TimerCalls limit (scheduler.runTimers limit now).scheduler.nextTimer times ticks left →
      TimerCalls limit scheduler.nextTimer (now :: times)
        ((scheduler.runTimers limit now).ticks + ticks) left

theorem TimerCalls.caughtUpAt {limit ticks : Nat} {due left : Time} {times : List Time}
    (calls : TimerCalls limit due times ticks left) :
    CaughtUpAt limit Clock.timerPeriod due times ticks left := by
  induction calls with
  | none => exact .none
  | @call scheduler now left times ticks punctual _ inductionHypothesis =>
      have kept : scheduler.dropLateTicks now = scheduler := if_neg punctual
      have ticked := scheduler.runTimers_ticked limit now
      rw [kept] at ticked
      refine .call ticked.movedOn (fun stillDue => ?_) inductionHypothesis
      have exhausted : (scheduler.runTimers limit now).caughtUp = false :=
        eq_false_of_ne_true fun caughtUp => ticked.caughtUp_iff.mp caughtUp stillDue
      exact tickUntil_exhausted now limit _ exhausted

/-! ## Cycles of the machine -/

section Cycles

variable {period now : Time} {scheduler : Scheduler Time} {batch : Batch Time}

/-- A wait moves the clock by itself, after cycles that were due. -/
theorem Batched.exists_movedOn (batched : Batched period now scheduler batch) :
    ∃ left, MovedOn scheduler.nextCycle period now batch.cycles left ∧
      (batch.ending ≠ .awaitingKey → left = batch.scheduler.nextCycle) := by
  induction batched with
  | caughtUp _ => exact ⟨_, .none, fun _ => rfl⟩
  | exhausted _ => exact ⟨_, .none, fun _ => rfl⟩
  | awaitingKey _ _ => exact ⟨_, .none, fun awake => absurd rfl awake⟩
  | interrupted due _ _ => exact ⟨_, MovedOn.step due .none, fun _ => rfl⟩
  | programEnded due _ _ => exact ⟨_, MovedOn.step due .none, fun _ => rfl⟩
  | further due _ _ _ inductionHypothesis =>
      obtain ⟨left, moved, reached⟩ := inductionHypothesis
      exact ⟨left, .step due moved, reached⟩

/-- A batch moves its due time on by one period for each cycle, unless a wait sets it anew. -/
theorem Batched.movedOn (batched : Batched period now scheduler batch)
    (awake : batch.ending ≠ .awaitingKey) :
    MovedOn scheduler.nextCycle period now batch.cycles batch.scheduler.nextCycle := by
  obtain ⟨left, moved, reached⟩ := batched.exists_movedOn
  rwa [reached awake] at moved

theorem Batched.rebased (batched : Batched period now scheduler batch)
    (waits : batch.ending = .awaitingKey) : batch.scheduler.nextCycle = now + period := by
  induction batched with
  | awaitingKey _ _ => rfl
  | further _ _ _ _ inductionHypothesis => exact inductionHypothesis waits
  | exhausted _ => cases waits
  | caughtUp _ => cases waits
  | interrupted _ _ _ => cases waits
  | programEnded _ _ _ => cases waits

theorem Batched.stillDue (batched : Batched period now scheduler batch)
    (exhausted : batch.ending = .exhausted) : batch.scheduler.nextCycle ≤ now := by
  induction batched with
  | exhausted due => exact due
  | further _ _ _ _ inductionHypothesis => exact inductionHypothesis exhausted
  | caughtUp _ => cases exhausted
  | awaitingKey _ _ => cases exhausted
  | interrupted _ _ _ => cases exhausted
  | programEnded _ _ _ => cases exhausted

theorem Batched.notYet (batched : Batched period now scheduler batch)
    (caughtUp : batch.ending = .caughtUp) : ¬ batch.scheduler.nextCycle ≤ now := by
  induction batched with
  | caughtUp notYet => exact notYet
  | further _ _ _ _ inductionHypothesis => exact inductionHypothesis caughtUp
  | exhausted _ => cases caughtUp
  | awaitingKey _ _ => cases caughtUp
  | interrupted _ _ _ => cases caughtUp
  | programEnded _ _ _ => cases caughtUp

/-- The machine of a batch is cycled once for each step, whatever the steps report. -/
theorem Batched.machine (batched : Batched period now scheduler batch) :
    batch.scheduler.machine =
      (fun machine => machine.cycle.state)^[batch.cycles] scheduler.machine := by
  induction batched with
  | caughtUp _ => rfl
  | exhausted _ => rfl
  | awaitingKey _ _ => rfl
  | interrupted _ _ _ => rfl
  | programEnded _ _ _ => rfl
  | further _ _ _ _ inductionHypothesis =>
      rw [Nat.add_comm, Function.iterate_succ_apply]
      exact inductionHypothesis

theorem Batched.clock (batched : Batched period now scheduler batch) :
    batch.scheduler.machine.clock = scheduler.machine.clock := by
  induction batched with
  | caughtUp _ => rfl
  | exhausted _ => rfl
  | awaitingKey _ _ => rfl
  | interrupted _ _ _ => exact Machine.cycle_clock _
  | programEnded _ _ _ => exact Machine.cycle_clock _
  | further _ _ _ _ inductionHypothesis => exact inductionHypothesis.trans (Machine.cycle_clock _)

theorem cycleUntil_exhausted (period now : Time) (limit : Nat) (scheduler : Scheduler Time)
    (exhausted : (cycleUntil period now limit 0 [] scheduler).ending = .exhausted) :
    (cycleUntil period now limit 0 [] scheduler).cycles = limit := by
  induction limit generalizing scheduler with
  | zero => rfl
  | succ limit inductionHypothesis =>
      by_cases due : scheduler.nextCycle ≤ now
      · by_cases waiting : scheduler.machine.waiting
        · simp [cycleUntil, due, waiting] at exhausted
        · cases answer : (scheduler.cycle period).answer with
          | error interruption => simp [cycleUntil, due, waiting, answer] at exhausted
          | ok ended =>
              cases ended with
              | true => simp [cycleUntil, due, waiting, answer] at exhausted
              | false =>
                  simp only [cycleUntil, due, waiting, answer, if_true, Bool.false_eq_true,
                    if_false, cycleUntil_before period now limit (0 + 1)] at exhausted ⊢
                  rw [inductionHypothesis (scheduler.cycle period).state exhausted, Nat.zero_add,
                    Nat.add_comm]
      · simp [cycleUntil, due] at exhausted

end Cycles

/-- Calls of the loop that runs instructions, for a program that goes on in all of them.  Each finds
the machine and the clock of the instructions where the call before has left them, and not too late
to be caught up with. -/
inductive InstructionCalls (limit : Nat) :
    Machine → Time → List Time → Nat → Machine → Time → Prop
  | none {machine : Machine} {due : Time} : InstructionCalls limit machine due [] 0 machine due
  | call {scheduler : Scheduler Time} {now left : Time} {times : List Time} {cycles : Nat}
      {after : Machine} :
      ¬ scheduler.nextCycle < now - Clock.greatestLag →
      (scheduler.runInstructions limit now).ending.Unhindered →
      InstructionCalls limit (scheduler.runInstructions limit now).scheduler.machine
        (scheduler.runInstructions limit now).scheduler.nextCycle times cycles after left →
      InstructionCalls limit scheduler.machine scheduler.nextCycle (now :: times)
        ((scheduler.runInstructions limit now).cycles + cycles) after left

namespace InstructionCalls

variable {limit cycles : Nat} {machine after : Machine} {due left : Time} {times : List Time}

theorem caughtUpAt (calls : InstructionCalls limit machine due times cycles after left) :
    CaughtUpAt limit (Clock.cyclePeriod machine.clock.clamp) due times cycles left ∧
      after = (fun machine => machine.cycle.state)^[cycles] machine := by
  induction calls with
  | none => exact ⟨.none, rfl⟩
  | @call scheduler now left times cycles after punctual unhindered _ inductionHypothesis =>
      obtain ⟨rest, reached⟩ := inductionHypothesis
      have kept : scheduler.dropLateCycles now = scheduler := if_neg punctual
      have batched := scheduler.runInstructions_batched limit now
      rw [kept] at batched
      rw [batched.clock] at rest
      constructor
      · have awake : (scheduler.runInstructions limit now).ending ≠ .awaitingKey := by
          rcases unhindered with ending | ending <;> rw [ending] <;> decide
        refine .call (batched.movedOn awake) (fun stillDue => ?_) rest
        have exhausted := unhindered.resolve_left fun ending => batched.notYet ending stillDue
        exact cycleUntil_exhausted scheduler.period now limit _ exhausted
      · rw [reached, batched.machine, ← Function.iterate_add_apply, Nat.add_comm]

end InstructionCalls

/-- The loops that catch up with the clocks lose no step and repeat none, however time is cut into
calls.  The timers tick as often as their clock is due at the last call, and the machine ends as
after as many cycles as are due then, if the program goes on. -/
theorem steps_ignore_cuts (transitive : ∀ a b c : Time, a ≤ b → b ≤ c → a ≤ c)
    {limit count : Nat} (fits : count ≤ limit) {times : List Time} {latest : Time}
    (ordered : times.Pairwise (· ≤ ·)) (last : times.getLast? = some latest) :
    (∀ (due : Time) (ticks : Nat) (left : Time), TimerCalls limit due times ticks left →
      DueUntil due Clock.timerPeriod latest count →
        ticks = count ∧ left = dueAfter due Clock.timerPeriod count) ∧
    (∀ (scheduler : Scheduler Time) (now : Time),
      (scheduler.runTimers limit now).scheduler.machine =
        Machine.tickTimers^[(scheduler.runTimers limit now).ticks] scheduler.machine) ∧
    ∀ (machine : Machine) (due : Time) (cycles : Nat) (after : Machine) (left : Time),
      InstructionCalls limit machine due times cycles after left →
      DueUntil due (Clock.cyclePeriod machine.clock.clamp) latest count →
        cycles = count ∧ after = (fun machine => machine.cycle.state)^[count] machine ∧
          left = dueAfter due (Clock.cyclePeriod machine.clock.clamp) count := by
  refine ⟨fun due ticks left calls dueUntil => ?_, fun scheduler now => ?_,
    fun machine due cycles after left calls dueUntil => ?_⟩
  · exact calls.caughtUpAt.total transitive fits ordered last dueUntil
  · have ticked := scheduler.runTimers_ticked limit now
    obtain ⟨_, dropped⟩ := scheduler.dropLateTicks_frame now
    rw [ticked.machine, dropped]
  · obtain ⟨caughtUp, reached⟩ := calls.caughtUpAt
    obtain ⟨rfl, moved⟩ := caughtUp.total transitive fits ordered last dueUntil
    exact ⟨rfl, reached, moved⟩

/-- Three calls, two of them at one time, tick and run as often as one call would. -/
theorem steps_ignore_cuts_three :
    let machine := ((Machine.powerOn (.whole 60) false (.ofScript [])).load
      [0x70, 0x01, 0x12, 0x00]).state
    let begun : Scheduler Rat := ((start machine [] true).1.begin 0).1
    let times : List Rat := [1 / 50, 1 / 50, 1 / 20]
    (∃ ticks left, TimerCalls 10 begun.nextTimer times ticks left ∧ ticks = 3 ∧ left = 1 / 15) ∧
      ∃ cycles after left,
        InstructionCalls 10 begun.machine begun.nextCycle times cycles after left ∧
          cycles = 4 ∧ after.register 0 = 2 ∧ left = 1 / 15 := by
  intro machine begun times
  have transitive : ∀ a b c : Rat, a ≤ b → b ≤ c → a ≤ c := fun _ _ _ => Rat.le_trans
  have ordered : times.Pairwise (· ≤ ·) := by decide +kernel
  have last : times.getLast? = some (1 / 20) := rfl
  constructor
  · have calls : TimerCalls 10 begun.nextTimer times _ _ :=
      .call (by decide +kernel) <| .call (by decide +kernel) <| .call (by decide +kernel) .none
    have dueUntil : DueUntil begun.nextTimer Clock.timerPeriod (1 / 20) 3 :=
      MovedOn.dueUntil ⟨by decide +kernel, rfl⟩ (by decide +kernel)
    obtain ⟨timers, _⟩ := steps_ignore_cuts transitive (by decide : 3 ≤ 10) ordered last
    obtain ⟨ticks, left⟩ := timers _ _ _ calls dueUntil
    exact ⟨_, _, calls, ticks, left.trans (by decide +kernel)⟩
  · let first := begun.runInstructions 10 (1 / 50)
    let second := first.scheduler.runInstructions 10 (1 / 50)
    let third := second.scheduler.runInstructions 10 (1 / 20)
    obtain ⟨firstPunctual, secondPunctual, thirdPunctual, firstEnding, secondEnding,
        thirdEnding⟩ :
        (¬ begun.nextCycle < 1 / 50 - Clock.greatestLag) ∧
          (¬ first.scheduler.nextCycle < 1 / 50 - Clock.greatestLag) ∧
          (¬ second.scheduler.nextCycle < 1 / 20 - Clock.greatestLag) ∧
          first.ending = .caughtUp ∧ second.ending = .caughtUp ∧ third.ending = .caughtUp := by
      decide +kernel
    have calls : InstructionCalls 10 begun.machine begun.nextCycle times _ _ _ :=
      .call firstPunctual (.inl firstEnding) <| .call secondPunctual (.inl secondEnding) <|
        .call thirdPunctual (.inl thirdEnding) .none
    have dueUntil : DueUntil begun.nextCycle (Clock.cyclePeriod begun.machine.clock.clamp)
        (1 / 20) 4 :=
      MovedOn.dueUntil ⟨by decide +kernel, rfl⟩ (by decide +kernel)
    obtain ⟨_, _, instructions⟩ := steps_ignore_cuts transitive (by decide : 4 ≤ 10) ordered last
    obtain ⟨cycles, after, left⟩ := instructions _ _ _ _ _ calls dueUntil
    refine ⟨_, _, _, calls, cycles, ?_, left.trans (by decide +kernel)⟩
    rw [after]
    decide +kernel

end Scheduler

end ChipEight
