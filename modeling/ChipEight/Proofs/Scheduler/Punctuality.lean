import ChipEight.Proofs.Scheduler.DueTimes
import Mathlib.Algebra.Order.Field.Rat
import Mathlib.Tactic.Linarith
import Mathlib.Tactic.Ring

/-!
# Catching up in time

Where times are fractions, a clock is due in equal steps.  A batch starts no earlier than a tenth of
a second before the present, so the number of its steps is bounded by the rate of its clock, and the
clock that it leaves stands ahead of the present: `caught_up_in_few_steps`.
-/

namespace ChipEight

/-! ## Exact clocks -/

/-- The due time from which a batch starts.  One that is late by more than a tenth of a second is
given up for the present. -/
def punctual (now due : Rat) : Rat :=
  if due < now - 1 / 10 then now else due

theorem punctual_of_late {now due : Rat} (late : due < now - 1 / 10) : punctual now due = now :=
  if_pos late

/-- A clock that was set ahead over a gap lags by no more than the greatest lag. -/
theorem punctual_recent (now due : Rat) : now - 1 / 10 ≤ punctual now due := by
  rw [punctual]
  split <;> linarith

theorem punctual_le {now due : Rat} (past : due ≤ now) : punctual now due ≤ now := by
  rw [punctual]
  split <;> linarith

/-- A clock has been set ahead of the present, and if it was due, by no more than a period. -/
structure SetAhead (now period before after : Rat) : Prop where
  ahead : now < after
  near : before ≤ now → after ≤ now + period

theorem SetAhead.rebased {now period : Rat} (positive : 0 < period) (before : Rat) :
    SetAhead now period before (now + period) :=
  ⟨lt_add_of_pos_right now positive, fun _ => le_rfl⟩

/-- Over exact times the repeated sum of a period is a product. -/
theorem dueAfter_eq (first period : Rat) (steps : Nat) :
    dueAfter first period steps = first + steps * period := by
  induction steps with
  | zero => simp [dueAfter]
  | succ steps inductionHypothesis =>
      have next : dueAfter first period (steps + 1) = dueAfter first period steps + period := rfl
      rw [next, inductionHypothesis]
      push_cast
      ring

namespace MovedOn

variable {first period now due left : Rat} {steps : Nat}

/-- Each step was due when it was made. -/
theorem due_eq (moved : MovedOn first period now steps left) {earlier : Nat}
    (before : earlier < steps) : first + earlier * period ≤ now := by
  rw [← dueAfter_eq]
  exact moved.due earlier before

theorem left_eq (moved : MovedOn first period now steps left) : left = first + steps * period := by
  rw [← dueAfter_eq]
  exact moved.left

/-- Where the last step has not caught up, one more is due. -/
theorem next (moved : MovedOn first period now steps left) (stillDue : left ≤ now) :
    MovedOn first period now (steps + 1) (dueAfter first period (steps + 1)) := by
  refine ⟨fun earlier before => ?_, rfl⟩
  rcases Nat.lt_succ_iff_lt_or_eq.mp before with sooner | rfl
  · exact moved.due earlier sooner
  · rw [← moved.left]
    exact stillDue

/-- No more periods fit into the greatest lag than the rate allows, and one more step may be due at
once. -/
theorem steps_le_of_rate {rate : Nat} (positive : 0 < rate)
    (moved : MovedOn (punctual now due) (1 / rate) now steps left) : steps ≤ rate / 10 + 1 := by
  refine Nat.le_of_not_lt fun many => ?_
  have stillDue := moved.due_eq many
  have recent := punctual_recent now due
  have whole : (rate : Rat) < 10 * (rate / 10 + 1 : Nat) := by
    exact_mod_cast (by omega : rate < 10 * (rate / 10 + 1))
  have beyond : 1 / 10 < ((rate / 10 + 1 : Nat) : Rat) * (1 / rate) := by
    rw [mul_one_div, lt_div_iff₀ (by exact_mod_cast positive)]
    linarith
  linarith

/-- Behind a gap the clock starts from the reading itself, so one step suffices. -/
theorem steps_le_one (positive : 0 < period) (late : due < now - 1 / 10)
    (moved : MovedOn (punctual now due) period now steps left) : steps ≤ 1 := by
  refine Nat.le_of_not_lt fun many => ?_
  have stillDue := moved.due_eq many
  rw [punctual_of_late late, Nat.cast_one, one_mul] at stillDue
  linarith

theorem setAhead (moved : MovedOn (punctual now due) period now steps left) (ahead : now < left) :
    SetAhead now period due left := by
  refine ⟨ahead, fun past => ?_⟩
  have started := punctual_le past
  have reached := moved.left_eq
  cases steps with
  | zero =>
      rw [Nat.cast_zero, zero_mul] at reached
      linarith
  | succ steps =>
      have stillDue := moved.due_eq (Nat.lt_succ_self steps)
      push_cast at reached
      linarith

end MovedOn

theorem Interruption.ending_ne_exhausted (interruption : Interruption) :
    interruption.ending ≠ .exhausted := by
  cases interruption <;> simp [Interruption.ending]

namespace Scheduler

/-! ## Instructions -/

variable (scheduler : Scheduler Rat) (now : Rat) {limit : Nat}

/-- The rate at which instructions are run, which is whole and from `1` to `5000`. -/
def rate : Nat :=
  scheduler.machine.clock.clamp

theorem rate_positive : 0 < scheduler.rate :=
  scheduler.machine.clock.clamp_bounds.1

theorem period_positive : 0 < 1 / (scheduler.rate : Rat) :=
  one_div_pos.mpr (by exact_mod_cast scheduler.rate_positive)

theorem dropLateCycles_nextCycle :
    (scheduler.dropLateCycles now).nextCycle = punctual now scheduler.nextCycle := by
  rw [dropLateCycles, punctual]
  split
  next late => exact (if_pos late).symm
  next recent => exact (if_neg recent).symm

/-- The due time is moved on from where the lateness was dropped; only a wait sets it elsewhere. -/
theorem runInstructions_movedOn (limit : Nat) :
    ∃ left, MovedOn (punctual now scheduler.nextCycle) (1 / (scheduler.rate : Rat)) now
        (scheduler.runInstructions limit now).cycles left ∧
      ((scheduler.runInstructions limit now).ending ≠ .awaitingKey →
        left = (scheduler.runInstructions limit now).scheduler.nextCycle) := by
  rw [← dropLateCycles_nextCycle]
  exact (scheduler.runInstructions_batched limit now).exists_movedOn

/-- At most the cycles of a tenth of a second are made up for, and one more. -/
theorem runInstructions_cycles_le (limit : Nat) :
    (scheduler.runInstructions limit now).cycles ≤ scheduler.rate / 10 + 1 := by
  obtain ⟨_, moved, -⟩ := scheduler.runInstructions_movedOn now limit
  exact moved.steps_le_of_rate scheduler.rate_positive

theorem runInstructions_cycles_le_one (limit : Nat) (late : scheduler.nextCycle < now - 1 / 10) :
    (scheduler.runInstructions limit now).cycles ≤ 1 := by
  obtain ⟨_, moved, -⟩ := scheduler.runInstructions_movedOn now limit
  exact moved.steps_le_one scheduler.period_positive late

/-- A limit that large is never reached, so the batch ends by itself. -/
theorem runInstructions_ends (enough : scheduler.rate / 10 + 1 ≤ limit) :
    (scheduler.runInstructions limit now).ending ≠ .exhausted := by
  intro exhausted
  obtain ⟨_, moved, reached⟩ := scheduler.runInstructions_movedOn now limit
  obtain rfl := reached (by rw [exhausted]; decide)
  have stillDue := (scheduler.runInstructions_batched limit now).stillDue exhausted
  have more := (moved.next stillDue).steps_le_of_rate scheduler.rate_positive
  have all : (scheduler.runInstructions limit now).cycles = limit :=
    cycleUntil_exhausted scheduler.period now limit _ exhausted
  omega

theorem runInstructions_setAhead (limit : Nat)
    (goesOn : (scheduler.runInstructions limit now).ending = .caughtUp ∨
      (scheduler.runInstructions limit now).ending = .awaitingKey) :
    SetAhead now (1 / (scheduler.rate : Rat)) scheduler.nextCycle
      (scheduler.runInstructions limit now).scheduler.nextCycle := by
  have batched := scheduler.runInstructions_batched limit now
  rcases goesOn with caughtUp | waits
  · obtain ⟨_, moved, reached⟩ := scheduler.runInstructions_movedOn now limit
    obtain rfl := reached (by rw [caughtUp]; decide)
    exact moved.setAhead (not_le.mp (batched.notYet caughtUp))
  · rw [batched.rebased waits]
    exact .rebased scheduler.period_positive _

/-! ## Ticks of the timers -/

theorem dropLateTicks_nextTimer :
    (scheduler.dropLateTicks now).nextTimer = punctual now scheduler.nextTimer := by
  rw [dropLateTicks, punctual]
  split
  next late => exact (if_pos late).symm
  next recent => exact (if_neg recent).symm

theorem runTimers_movedOn (limit : Nat) :
    MovedOn (punctual now scheduler.nextTimer) (1 / (60 : Nat)) now
      (scheduler.runTimers limit now).ticks
      (scheduler.runTimers limit now).scheduler.nextTimer := by
  rw [← dropLateTicks_nextTimer]
  exact (scheduler.runTimers_ticked limit now).movedOn

/-- At most the ticks of a tenth of a second are made up for, and one more. -/
theorem runTimers_ticks_le (limit : Nat) : (scheduler.runTimers limit now).ticks ≤ 7 :=
  (scheduler.runTimers_movedOn now limit).steps_le_of_rate (by decide)

/-- Seven ticks are enough for every lateness. -/
theorem runTimers_caughtUp (enough : 7 ≤ limit) :
    (scheduler.runTimers limit now).caughtUp = true := by
  refine eq_true_of_ne_false fun exhausted => ?_
  have ticked := scheduler.runTimers_ticked limit now
  have stillDue : (scheduler.runTimers limit now).scheduler.nextTimer ≤ now := by
    by_contra notYet
    rw [ticked.caughtUp_iff.mpr notYet] at exhausted
    cases exhausted
  have more := ((scheduler.runTimers_movedOn now limit).next stillDue).steps_le_of_rate (by decide)
  have all : (scheduler.runTimers limit now).ticks = limit :=
    tickUntil_exhausted now limit _ exhausted
  omega

theorem runTimers_setAhead (enough : 7 ≤ limit) :
    SetAhead now (1 / 60) scheduler.nextTimer
      (scheduler.runTimers limit now).scheduler.nextTimer := by
  have caughtUp := (scheduler.runTimers_ticked limit now).caughtUp_iff.mp
    (scheduler.runTimers_caughtUp now enough)
  exact (scheduler.runTimers_movedOn now limit).setAhead (not_le.mp caughtUp)

theorem runTimers_ticks_eq_one (enough : 7 ≤ limit) (late : scheduler.nextTimer < now - 1 / 10) :
    (scheduler.runTimers limit now).ticks = 1 := by
  have moved := scheduler.runTimers_movedOn now limit
  have few := moved.steps_le_one (by norm_num) late
  have some : (scheduler.runTimers limit now).ticks ≠ 0 := by
    intro none
    have reached := moved.left_eq
    rw [none, punctual_of_late late, Nat.cast_zero, zero_mul, add_zero] at reached
    exact absurd (scheduler.runTimers_setAhead now enough).ahead (by rw [reached]; exact lt_irrefl _)
  omega

/-! ## Both loops -/

theorem runInstructions_nextTimer (limit : Nat) :
    (scheduler.runInstructions limit now).scheduler.nextTimer = scheduler.nextTimer := by
  obtain ⟨_, _, ran⟩ := (scheduler.runInstructions_batched limit now).frame
  obtain ⟨_, dropped⟩ := scheduler.dropLateCycles_frame now
  rw [ran, dropped]

theorem runTimers_nextCycle (limit : Nat) :
    (scheduler.runTimers limit now).scheduler.nextCycle = scheduler.nextCycle := by
  obtain ⟨_, _, ticked⟩ := (scheduler.runTimers_ticked limit now).frame
  obtain ⟨_, dropped⟩ := scheduler.dropLateTicks_frame now
  rw [ticked, dropped]

/-- Catching up ends, and if the run goes on, both clocks have been set ahead. -/
structure InTime (scheduler : Scheduler Rat) (now : Rat) (after : Scheduler Rat)
    (ending : Option Ending) : Prop where
  ends : ending ≠ some .exhausted
  goesOn : ending = none →
    SetAhead now (1 / (scheduler.rate : Rat)) scheduler.nextCycle after.nextCycle ∧
      SetAhead now (1 / 60) scheduler.nextTimer after.nextTimer

theorem InTime.of_stops {scheduler after : Scheduler Rat} {now : Rat} {ending : Ending}
    (ends : ending ≠ .exhausted) : InTime scheduler now after (some ending) :=
  ⟨fun same => ends (Option.some.inj same), fun goesOn => absurd goesOn (Option.some_ne_none _)⟩

/-- Neither batch is cut short, and both clocks are set ahead where the run goes on. -/
theorem catchUp_inTime (running : scheduler.running = true)
    (enough : scheduler.rate / 10 + 1 ≤ limit) (enoughTicks : 7 ≤ limit) :
    InTime scheduler now (scheduler.catchUp limit now).1 (scheduler.catchUp limit now).2.1 := by
  have caughtUp :=
    (scheduler.runInstructions limit now).scheduler.runTimers_caughtUp now enoughTicks
  have ticks := (scheduler.runInstructions limit now).scheduler.runTimers_setAhead now enoughTicks
  rw [runInstructions_nextTimer] at ticks
  have cycles := scheduler.runInstructions_setAhead now limit
  rw [← (scheduler.runInstructions limit now).scheduler.runTimers_nextCycle now limit] at cycles
  simp only [catchUp, running, if_true]
  cases ending : (scheduler.runInstructions limit now).ending with
  | exhausted => exact absurd ending (scheduler.runInstructions_ends now enough)
  | interrupted interruption => exact .of_stops interruption.ending_ne_exhausted
  | programEnded =>
      simp only [caughtUp, if_true]
      exact .of_stops (by decide)
  | caughtUp =>
      simp only [caughtUp, if_true]
      exact ⟨by simp, fun _ => ⟨cycles (.inl ending), ticks⟩⟩
  | awaitingKey =>
      simp only [caughtUp, if_true]
      exact ⟨by simp, fun _ => ⟨cycles (.inr ending), ticks⟩⟩

/-- Whatever the machine and its clocks, a turn catches up in few steps.  Of the cycles there are at
most one more than fall due in a tenth of a second, of the ticks at most seven, and of a clock that
is late by more only one step is taken.  Unless the program ends or faults, both clocks then stand
ahead of the present, and one that was due stands at most a period ahead. -/
theorem caught_up_in_few_steps (scheduler : Scheduler Rat) (now : Rat) :
    let rate := scheduler.rate
    (∀ limit,
      let batch := scheduler.runInstructions limit now
      batch.scheduler.machine =
          (fun machine => machine.cycle.state)^[batch.cycles] scheduler.machine ∧
        batch.cycles ≤ rate / 10 + 1 ∧
        (scheduler.nextCycle < now - 1 / 10 → batch.cycles ≤ 1) ∧
        (rate / 10 + 1 ≤ limit →
          batch.ending ≠ .exhausted ∧
          (batch.ending ≠ .programEnded → (∀ fault, batch.ending ≠ .interrupted fault) →
            SetAhead now (1 / (rate : Rat)) scheduler.nextCycle batch.scheduler.nextCycle))) ∧
    (∀ limit,
      let batch := scheduler.runTimers limit now
      batch.scheduler.machine = Machine.tickTimers^[batch.ticks] scheduler.machine ∧
        batch.ticks ≤ 7 ∧
        (7 ≤ limit →
          batch.caughtUp = true ∧
          (scheduler.nextTimer < now - 1 / 10 → batch.ticks = 1) ∧
          SetAhead now (1 / 60) scheduler.nextTimer batch.scheduler.nextTimer)) ∧
    (∀ limit, scheduler.running = true → rate / 10 + 1 ≤ limit → 7 ≤ limit →
      let (after, ending, _) := scheduler.catchUp limit now
      InTime scheduler now after ending) := by
  refine ⟨fun limit => ⟨?_, scheduler.runInstructions_cycles_le now limit,
      scheduler.runInstructions_cycles_le_one now limit, fun enough => ?_⟩,
    fun limit => ⟨?_, scheduler.runTimers_ticks_le now limit, fun enough => ?_⟩,
    fun limit running enough enoughTicks => scheduler.catchUp_inTime now running enough enoughTicks⟩
  · obtain ⟨_, dropped⟩ := scheduler.dropLateCycles_frame now
    rw [(scheduler.runInstructions_batched limit now).machine, dropped]
  · have ends := scheduler.runInstructions_ends now enough
    refine ⟨ends, fun unended unfaulted => scheduler.runInstructions_setAhead now limit ?_⟩
    cases ending : (scheduler.runInstructions limit now).ending with
    | caughtUp => exact .inl rfl
    | awaitingKey => exact .inr rfl
    | programEnded => exact absurd ending unended
    | interrupted fault => exact absurd ending (unfaulted fault)
    | exhausted => exact absurd ending ends
  · obtain ⟨_, dropped⟩ := scheduler.dropLateTicks_frame now
    rw [(scheduler.runTimers_ticked limit now).machine, dropped]
  · exact ⟨scheduler.runTimers_caughtUp now enough, scheduler.runTimers_ticks_eq_one now enough,
      scheduler.runTimers_setAhead now enough⟩

end Scheduler

end ChipEight
