import ChipEight.Proofs.Scheduler.Discipline

/-!
# Clocks that start anew

A reset and the end of a pause set both clocks to the present, and no other command moves them.  So
a turn that obeys one of the two, whatever else it obeys, runs a single instruction and makes no
tick, however long the clocks stood still before: `no_burst_after_restart`.
-/

namespace ChipEight

/-- The laws by which readings are compared.  They are those of doubles, of which one that is no
number is below none, not even itself. -/
structure Clock.Ordered (Time : Type) [Clock Time] : Prop where
  self {a b : Time} : a ≤ b → a ≤ a
  trans {a b c : Time} : a ≤ b → b ≤ c → a ≤ c
  lt_iff {a b : Time} : a < b ↔ a ≤ b ∧ ¬ b ≤ a

theorem Clock.ordered_rat : Clock.Ordered Rat where
  self _ := Rat.le_refl
  trans := Rat.le_trans
  lt_iff := ⟨fun less => ⟨Rat.le_of_lt less, Rat.not_le.mpr less⟩, fun less => Rat.not_le.mp less.2⟩

theorem Clock.Ordered.not_lt_of_le {Time : Type} [Clock Time] (ordered : Clock.Ordered Time)
    {a b : Time} (atMost : a ≤ b) : ¬ b < a :=
  fun less => (ordered.lt_iff.mp less).2 atMost

namespace Scheduler

variable {Time : Type} [Clock Time]

/-! ## Commands -/

/-- Both clocks were started at a time. -/
structure RestartedAt (now : Time) (scheduler : Scheduler Time) : Prop where
  nextCycle : scheduler.nextCycle = now
  nextTimer : scheduler.nextTimer = now + Clock.timerPeriod

/-- A queue holds a reset, or a request to run that meets a pause. -/
def Restarts (scheduler : Scheduler Time) (inbox : List Command) (now : Time) : Prop :=
  ∃ earlier command later, inbox = earlier ++ command :: later ∧
    (command = .reset ∨
      command = .setRunning true ∧ (scheduler.obeyAll earlier now).running = false)

section Commands

variable {scheduler : Scheduler Time} {now : Time}

/-- A reset sets both clocks from the reading at which it is obeyed. -/
theorem restartedAt_reset (fits : scheduler.program.length ≤ 3584) :
    RestartedAt now (scheduler.handle .reset now).state := by
  rw [handle, reload_of_fits scheduler fits]
  exact ⟨rfl, rfl⟩

/-- So does the end of a pause. -/
theorem restartedAt_resume (paused : scheduler.running = false) :
    RestartedAt now (scheduler.handle (.setRunning true) now).state := by
  simp only [handle, setRunning, paused]
  exact ⟨rfl, rfl⟩

/-- No command of the same time moves a clock that was started at it. -/
theorem RestartedAt.handle (restarted : RestartedAt now scheduler) (command : Command) :
    RestartedAt now (scheduler.handle command now).state := by
  cases command with
  | setRunning running =>
      simp only [Scheduler.handle, setRunning]
      split
      · exact restarted
      · split
        · exact ⟨rfl, rfl⟩
        · exact ⟨restarted.nextCycle, restarted.nextTimer⟩
  | setKey index pressed =>
      obtain ⟨_, _, frame⟩ := scheduler.handleKey_frame index pressed
      simp only [Scheduler.handle, frame]
      exact ⟨restarted.nextCycle, restarted.nextTimer⟩
  | reset =>
      simp only [Scheduler.handle, reload]
      split
      · exact ⟨rfl, rfl⟩
      · exact ⟨restarted.nextCycle, restarted.nextTimer⟩
  | quit => exact ⟨restarted.nextCycle, restarted.nextTimer⟩
  | stray text => exact restarted
  | unwritable reason => exact restarted

/-! ## Queues of commands -/

omit [Clock Time] in
theorem handleKey_clock (scheduler : Scheduler Time) (index : Int) (pressed : Bool) :
    (scheduler.handleKey index pressed).state.machine.clock = scheduler.machine.clock := by
  cases named : Key.ofIndex? index with
  | none => rw [scheduler.handleKey_of_none index pressed named]
  | some key =>
      rw [scheduler.handleKey_of_some index pressed named]
      cases pressed with
      | true =>
          simp only [if_true, pressKey, Machine.endWait]
          split
          · split <;> rfl
          · rfl
      | false => rfl

theorem handle_clock (scheduler : Scheduler Time) (command : Command) (now : Time) :
    (scheduler.handle command now).state.machine.clock = scheduler.machine.clock := by
  cases command with
  | setRunning running => exact congrArg Machine.clock (scheduler.setRunning_machine running now)
  | setKey index pressed => exact scheduler.handleKey_clock index pressed
  | reset =>
      have loaded := scheduler.machine.reset.load_clock scheduler.program
      rw [Machine.reset_clock] at loaded
      simp only [Scheduler.handle, reload]
      split <;> exact loaded
  | quit => rfl
  | stray text => rfl
  | unwritable reason => rfl

theorem obeyAll_keeps (scheduler : Scheduler Time) (commands : List Command) (now : Time) :
    (scheduler.obeyAll commands now).program = scheduler.program ∧
      (scheduler.obeyAll commands now).period = scheduler.period := by
  induction commands generalizing scheduler with
  | nil => exact ⟨rfl, rfl⟩
  | cons command commands inductionHypothesis =>
      obtain ⟨program, period⟩ := inductionHypothesis (scheduler.handle command now).state
      have samePeriod : (scheduler.handle command now).state.period = scheduler.period := by
        rw [Scheduler.period, Scheduler.period, handle_clock]
      exact ⟨program.trans (scheduler.handle_keeps command now).1, period.trans samePeriod⟩

theorem obeyAll_quit {commands : List Command} (noQuit : .quit ∉ commands) :
    (scheduler.obeyAll commands now).quit = scheduler.quit := by
  induction commands generalizing scheduler with
  | nil => rfl
  | cons command commands inductionHypothesis =>
      obtain ⟨other, noneLater⟩ := not_or.mp (mt List.mem_cons.mpr noQuit)
      exact (inductionHypothesis noneLater).trans (handle_quit_of_ne (Ne.symm other))

/-- A later command leaves the clocks alone or sets them from the same reading. -/
theorem RestartedAt.obeyAll (restarted : RestartedAt now scheduler) (commands : List Command) :
    RestartedAt now (scheduler.obeyAll commands now) := by
  induction commands generalizing scheduler with
  | nil => exact restarted
  | cons command commands inductionHypothesis =>
      exact inductionHypothesis (restarted.handle command)

/-- The commands before the restart do not matter, and those behind it keep it. -/
theorem Restarts.restartedAt {inbox : List Command} (restarts : scheduler.Restarts inbox now)
    (fits : .reset ∈ inbox → scheduler.program.length ≤ 3584) :
    RestartedAt now (scheduler.obeyAll inbox now) := by
  obtain ⟨earlier, command, later, rfl, restart⟩ := restarts
  -- What was obeyed before may have moved the clocks anywhere, but the program is still the same.
  have begun : RestartedAt now ((scheduler.obeyAll earlier now).handle command now).state := by
    rcases restart with rfl | ⟨rfl, paused⟩
    · apply restartedAt_reset
      rw [(obeyAll_keeps scheduler earlier now).1]
      exact fits (by simp)
    · exact restartedAt_resume paused
  have split : scheduler.obeyAll (earlier ++ command :: later) now =
      ((scheduler.obeyAll earlier now).handle command now).state.obeyAll later now := by
    simp only [Scheduler.obeyAll, List.foldl_append, List.foldl_cons]
  rw [split]
  exact begun.obeyAll later

end Commands

/-! ## Catching up -/

section CatchingUp

variable {scheduler : Scheduler Time} {now : Time}

theorem cycleUntil_notYet {period : Time} (notYet : ¬ scheduler.nextCycle ≤ now)
    (limit cycles : Nat) (recent : List LogEvent) :
    cycleUntil period now limit cycles recent scheduler =
      ⟨scheduler, .caughtUp, cycles, recent.reverse⟩ := by
  cases limit <;> simp [cycleUntil, notYet]

theorem runTimers_notYet (punctual : ¬ scheduler.nextTimer < now - Clock.greatestLag)
    (notYet : ¬ scheduler.nextTimer ≤ now) (limit : Nat) :
    scheduler.runTimers limit now = ⟨scheduler, true, 0⟩ := by
  rw [runTimers, if_neg punctual]
  cases limit <;> simp [tickUntil, notYet]

/-- One cycle is due at the reading itself, and the next one only later. -/
theorem runInstructions_once (punctual : ¬ scheduler.nextCycle < now - Clock.greatestLag)
    (due : scheduler.nextCycle ≤ now) (once : ¬ scheduler.nextCycle + scheduler.period ≤ now)
    (limit : Nat) :
    let batch := scheduler.runInstructions (limit + 1) now
    let cycles := if scheduler.machine.waiting then 0 else 1
    batch.cycles = cycles ∧
      batch.scheduler.machine =
        (fun machine => machine.cycle.state)^[cycles] scheduler.machine := by
  have batched := scheduler.runInstructions_batched (limit + 1) now
  have onTime : scheduler.dropLateCycles now = scheduler := if_neg punctual
  rw [onTime] at batched
  intro batch cycles
  have counted : batch.cycles = cycles := by
    simp only [batch, cycles, runInstructions, if_neg punctual, cycleUntil, if_pos due]
    split
    · rfl
    · split
      · rfl
      · rfl
      · rw [cycleUntil_notYet once]
  exact ⟨counted, counted ▸ batched.machine⟩

/-- Clocks that were just started let one instruction pass, unless the program waits, and no
tick. -/
theorem RestartedAt.once (restarted : RestartedAt now scheduler) (ordered : Clock.Ordered Time)
    (cyclesMove : now < now + scheduler.period) (timersMove : now < now + Clock.timerPeriod)
    (lags : now - Clock.greatestLag ≤ now) (limit : Nat) :
    let batch := scheduler.runInstructions (limit + 1) now
    let cycles := if scheduler.machine.waiting then 0 else 1
    batch.cycles = cycles ∧
      batch.scheduler.machine = (fun machine => machine.cycle.state)^[cycles] scheduler.machine ∧
      batch.scheduler.runTimers (limit + 1) now = ⟨batch.scheduler, true, 0⟩ := by
  intro batch cycles
  obtain ⟨notAfter, passes⟩ := ordered.lt_iff.mp cyclesMove
  obtain ⟨_, notYet⟩ := ordered.lt_iff.mp timersMove
  have due : scheduler.nextCycle ≤ now := by
    rw [restarted.nextCycle]
    exact ordered.self notAfter
  have once : ¬ scheduler.nextCycle + scheduler.period ≤ now := by
    rw [restarted.nextCycle]
    exact passes
  have punctual : ¬ scheduler.nextCycle < now - Clock.greatestLag := by
    rw [restarted.nextCycle]
    exact ordered.not_lt_of_le lags
  obtain ⟨counted, reached⟩ := runInstructions_once punctual due once limit
  obtain ⟨machine, left, frame⟩ := scheduler.runInstructions_frame (limit + 1) now
  have timer : batch.scheduler.nextTimer = now + Clock.timerPeriod :=
    (congrArg Scheduler.nextTimer frame).trans restarted.nextTimer
  rw [← timer] at notYet
  -- A tick that is due only later cannot be late, since what is late lies before the present.
  have timerPunctual : ¬ batch.scheduler.nextTimer < now - Clock.greatestLag :=
    fun late => notYet (ordered.trans (ordered.lt_iff.mp late).1 lags)
  exact ⟨counted, reached, runTimers_notYet timerPunctual notYet (limit + 1)⟩

end CatchingUp

/-! ## Deeds -/

section Deeds

variable (limit : Nat) (scheduler : Scheduler Time) (now : Time)

theorem drivingDeeds_instructionDeeds :
    (scheduler.instructionDeeds limit now).filter Deed.drives =
      List.replicate (scheduler.runInstructions limit now).cycles (.cycle scheduler.period) := by
  have late : (scheduler.lateCycles now).filter Deed.drives = [] := by
    rw [lateCycles]
    split <;> rfl
  rw [instructionDeeds, Batch.deeds, List.filter_append, List.filter_append, late]
  simp only [List.filter_replicate, Deed.drives, if_true, List.nil_append]
  split <;> simp [Deed.drives]

theorem drivingDeeds_timerDeeds :
    (scheduler.timerDeeds limit now).filter Deed.drives =
      List.replicate (scheduler.runTimers limit now).ticks .tick := by
  have late : (scheduler.lateTicks now).filter Deed.drives = [] := by
    rw [lateTicks]
    split <;> rfl
  rw [timerDeeds, List.filter_append, late]
  simp only [List.filter_replicate, Deed.drives, if_true, List.nil_append]

omit [Clock Time] in
theorem drivingDeeds_obeying (commands : List Command) :
    (obeying commands now).filter Deed.drives = [] := by
  simp [obeying, Deed.drives]

theorem drivingDeeds_workDeeds (running : scheduler.running = true)
    (none : ((scheduler.runInstructions limit now).scheduler.runTimers limit now).ticks = 0) :
    (scheduler.workDeeds limit now).filter Deed.drives =
      List.replicate (scheduler.runInstructions limit now).cycles (.cycle scheduler.period) := by
  have ticks := (scheduler.runInstructions limit now).scheduler.drivingDeeds_timerDeeds limit now
  rw [none] at ticks
  have caughtUp : (scheduler.catchUpDeeds limit now).filter Deed.drives =
      List.replicate (scheduler.runInstructions limit now).cycles (.cycle scheduler.period) := by
    simp only [catchUpDeeds, running, if_true, List.filter_append, drivingDeeds_instructionDeeds]
    split <;> simp [ticks]
  rw [workDeeds, List.filter_append, caughtUp]
  split <;> simp [Deed.drives]

end Deeds

/-- A turn whose commands reset the machine or end a pause makes up for nothing.  However long the
clocks stood still before, if the scheduler runs behind the commands, it runs one instruction, or
none if the program waits for a key, and makes no tick.  A turn one of whose commands fails runs and
ticks nothing. -/
theorem no_burst_after_restart (ordered : Clock.Ordered Time) (limit : Nat)
    (scheduler : Scheduler Time) (awake : scheduler.quit = false) (inbox : List Command)
    (noQuit : .quit ∉ inbox) (fits : .reset ∈ inbox → scheduler.program.length ≤ 3584)
    (now : Time) (restarts : scheduler.Restarts inbox now)
    (cyclesMove : now < now + scheduler.period) (timersMove : now < now + Clock.timerPeriod)
    (lags : now - Clock.greatestLag ≤ now) :
    let drained := scheduler.drain now inbox.length inbox
    let obedient := drained.state.1
    let batch := obedient.runInstructions (limit + 1) now
    let ticked := batch.scheduler.runTimers (limit + 1) now
    let cycles := if obedient.machine.waiting then 0 else 1
    let driving := (scheduler.turnDeeds (limit + 1) inbox now).filter Deed.drives
    (drained.answer = .ok () ↔
      ∀ command ∈ inbox, command.failure? scheduler.program scheduler.digitLimit = none) ∧
    (∀ error, drained.answer = .error error → driving = []) ∧
    (drained.answer = .ok () →
      drained.state.2 = [] ∧ obedient.quit = false ∧
      (obedient.running = true →
        batch.cycles = cycles ∧
        batch.scheduler.machine =
          (fun machine => machine.cycle.state)^[cycles] obedient.machine ∧
        ticked.ticks = 0 ∧ ticked.scheduler = batch.scheduler ∧
        driving = List.replicate cycles (.cycle scheduler.period))) := by
  intro drained obedient batch ticked cycles driving
  refine ⟨drain_answer_iff awake noQuit now, fun error failed => ?_, fun answer => ?_⟩
  · have stopped : driving =
        (obeying (scheduler.obeyed inbox now) now ++ []).filter Deed.drives := by
      simp only [driving, turnDeeds, drained] at failed ⊢
      rw [failed]
    rw [stopped, List.append_nil, drivingDeeds_obeying]
  obtain ⟨_, reached⟩ :=
    drain_whole awake noQuit ((drain_answer_iff awake noQuit now).mp answer) now
  have obeyed : obedient = scheduler.obeyAll inbox now := congrArg Prod.fst reached
  have stillAwake : obedient.quit = false := by
    rw [obeyed, obeyAll_quit noQuit, awake]
  have samePeriod : obedient.period = scheduler.period := by
    rw [obeyed, (obeyAll_keeps scheduler inbox now).2]
  have restarted : RestartedAt now obedient := by
    rw [obeyed]
    exact restarts.restartedAt fits
  refine ⟨congrArg Prod.snd reached, stillAwake, fun running => ?_⟩
  rw [← samePeriod] at cyclesMove ⊢
  obtain ⟨counted, machine, none⟩ := restarted.once ordered cyclesMove timersMove lags limit
  have noTick : ticked.ticks = 0 := congrArg TimerBatch.ticks none
  have driven := obedient.drivingDeeds_workDeeds (limit + 1) now running noTick
  have deeds : scheduler.turnDeeds (limit + 1) inbox now =
      obeying (scheduler.obeyed inbox now) now ++ obedient.workDeeds (limit + 1) now := by
    have goesOn : ¬ (scheduler.drain now inbox.length inbox).state.1.quit = true :=
      ne_true_of_eq_false stillAwake
    simp only [drained] at answer
    simp only [turnDeeds, answer, if_neg goesOn]
    rfl
  refine ⟨counted, machine, noTick, congrArg TimerBatch.scheduler none, ?_⟩
  simp only [driving]
  rw [deeds, List.filter_append, drivingDeeds_obeying, List.nil_append, driven]
  exact congrArg (List.replicate · _) counted

/-- A second of pause is over, the machine is reset, and keys are pressed and let go. -/
theorem no_burst_after_restart_second :
    let machine := ((Machine.powerOn (.whole 600) false (.ofScript [])).load [0x12, 0x00]).state
    let scheduler : Scheduler Rat := (start machine [0x12, 0x00] false).1
    let inbox : List Command :=
      [.setKey 5 true, .setRunning false, .setRunning true, .setRunning true, .reset,
        .setRunning false, .setKey 5 false, .setRunning true]
    let obedient := (scheduler.drain 1 inbox.length inbox).state.1
    let batch := obedient.runInstructions 100 1
    Clock.Ordered Rat ∧ scheduler.quit = false ∧ .quit ∉ inbox ∧
      (.reset ∈ inbox → scheduler.program.length ≤ 3584) ∧ scheduler.Restarts inbox 1 ∧
      1 < 1 + scheduler.period ∧ (1 : Rat) < 1 + Clock.timerPeriod ∧
      (1 : Rat) - Clock.greatestLag ≤ 1 ∧ obedient.running = true ∧ batch.cycles = 1 ∧
      (batch.scheduler.runTimers 100 1).ticks = 0 ∧
      (scheduler.turnDeeds 100 inbox 1).filter Deed.drives = [.cycle (1 / 600)] := by
  intro machine scheduler inbox obedient batch
  have awake : scheduler.quit = false := rfl
  have noQuit : .quit ∉ inbox := by decide
  have fits : .reset ∈ inbox → scheduler.program.length ≤ 3584 := fun _ => by decide
  have restarts : scheduler.Restarts inbox 1 :=
    ⟨[.setKey 5 true, .setRunning false, .setRunning true, .setRunning true], .reset, _, rfl,
      Or.inl rfl⟩
  obtain ⟨cyclesMove, timersMove, lags⟩ : 1 < 1 + scheduler.period ∧
      (1 : Rat) < 1 + Clock.timerPeriod ∧ (1 : Rat) - Clock.greatestLag ≤ 1 := by
    decide +kernel
  obtain ⟨answers, _, obeyed⟩ := no_burst_after_restart Clock.ordered_rat 99 scheduler awake inbox
    noQuit fits 1 restarts cyclesMove timersMove lags
  obtain ⟨running, goesOn⟩ : obedient.running = true ∧ obedient.machine.waiting = false := by
    decide +kernel
  obtain ⟨_, _, once⟩ := obeyed (answers.mpr (by decide +kernel))
  obtain ⟨counted, _, ticks, _, deeds⟩ := once running
  have one : (if obedient.machine.waiting then 0 else 1) = 1 := by rw [goesOn]; rfl
  have period : scheduler.period = 1 / 600 := by decide +kernel
  refine ⟨Clock.ordered_rat, awake, noQuit, fits, restarts, cyclesMove, timersMove, lags, running,
    counted.trans one, ticks, deeds.trans ?_⟩
  rw [one, period]
  rfl

end Scheduler

end ChipEight
