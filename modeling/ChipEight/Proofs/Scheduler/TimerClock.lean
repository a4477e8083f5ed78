import ChipEight.Proofs.Scheduler.DueTimes
import ChipEight.Proofs.Scheduler.Obedience

/-!
# The clock of the timers

Whether the timers run and when they are due next is all that their ticks depend on.  Of what a turn
does only its reading of the clock and the commands that steer the run have an effect on it.  So two
runs that are steered alike tick alike, whatever their programs do: `ticks_ignore_program`.
-/

namespace ChipEight

/-- The commands that have an effect on the clock of the timers or end the run. -/
def Command.steers : Command → Bool
  | .setRunning _ => true
  | .reset => true
  | .quit => true
  | _ => false

def Deed.isTick {Time : Type} : Deed Time → Bool
  | .tick => true
  | _ => false

def ticksOf {Time : Type} (deeds : List (Deed Time)) : Nat :=
  deeds.countP Deed.isTick

/-- What is read and what steers the run in each turn, if every turn obeys all that has come. -/
def steering {Time : Type} (inbox : List Command) : List (Tick Time) → List (Time × List Command)
  | [] => []
  | tick :: ticks =>
      (tick.now, (inbox ++ tick.arrivals).filter Command.steers) :: steering [] ticks

/-- A turn that goes on, or that finds the program at its end, has caught up with the clocks. -/
def Turn.CatchesUp {Time : Type} (turn : Turn Time) : Prop :=
  turn.ending = none ∨ turn.ending = some .programEnded

theorem ticksOf_append {Time : Type} (deeds later : List (Deed Time)) :
    ticksOf (deeds ++ later) = ticksOf deeds + ticksOf later :=
  List.countP_append

structure TimerClock (Time : Type) where
  running : Bool
  due : Time

namespace TimerClock

variable {Time : Type} [Clock Time]

def obey (clock : TimerClock Time) (command : Command) (now : Time) : TimerClock Time :=
  match command with
  | .setRunning running =>
      if running = clock.running then clock
      else if running then ⟨true, now + Clock.timerPeriod⟩
      else ⟨false, clock.due⟩
  | .reset => ⟨clock.running, now + Clock.timerPeriod⟩
  | _ => clock

def obeyAll (clock : TimerClock Time) (commands : List Command) (now : Time) : TimerClock Time :=
  commands.foldl (fun reached command => reached.obey command now) clock

/-- A time that is due, or the present if it was due too long ago. -/
def onTime (due now : Time) : Time :=
  if due < now - Clock.greatestLag then now else due

/-- How the clock moves on in a turn, once the commands are obeyed. -/
inductive Advances (now : Time) : TimerClock Time → Nat → TimerClock Time → Prop
  | paused {due : Time} : Advances now ⟨false, due⟩ 0 ⟨false, due⟩
  | runs {due : Time} {ticks : Nat} :
      DueUntil (onTime due now) Clock.timerPeriod now ticks →
      Advances now ⟨true, due⟩ ticks ⟨true, dueAfter (onTime due now) Clock.timerPeriod ticks⟩

theorem obey_of_not_steers (clock : TimerClock Time) {command : Command}
    (other : command.steers = false) (now : Time) : clock.obey command now = clock := by
  cases command with
  | setRunning running => cases other
  | reset => cases other
  | quit => cases other
  | setKey index pressed => rfl
  | stray text => rfl
  | unwritable reason => rfl

/-- A command that does not steer leaves the clock of the timers alone, wherever it stands in a
queue. -/
theorem obeyAll_filter (clock : TimerClock Time) (commands : List Command) (now : Time) :
    clock.obeyAll (commands.filter Command.steers) now = clock.obeyAll commands now := by
  induction commands generalizing clock with
  | nil => rfl
  | cons command commands inductionHypothesis =>
      by_cases steers : command.steers = true
      · rw [List.filter_cons_of_pos steers]
        exact inductionHypothesis (clock.obey command now)
      · have same := clock.obey_of_not_steers (eq_false_of_ne_true steers) now
        have behind := inductionHypothesis clock
        rw [List.filter_cons_of_neg steers, behind]
        simp only [obeyAll, List.foldl_cons, same]

/-- How often a clock ticks until a reading depends on the clock and the reading alone. -/
theorem Advances.unique {now : Time} {clock first second : TimerClock Time} {ticks others : Nat}
    (advances : Advances now clock ticks first) (again : Advances now clock others second) :
    ticks = others ∧ first = second := by
  cases advances with
  | paused =>
      cases again
      exact ⟨rfl, rfl⟩
  | runs dueUntil =>
      cases again with
      | runs same =>
          obtain rfl := dueUntil.unique same
          exact ⟨rfl, rfl⟩

end TimerClock

namespace Scheduler

variable {Time : Type} [Clock Time]

def timerClock (scheduler : Scheduler Time) : TimerClock Time :=
  ⟨scheduler.running, scheduler.nextTimer⟩

/-! ## Commands -/

section Commands

variable {scheduler : Scheduler Time} {now : Time}

theorem setRunning_timerClock (scheduler : Scheduler Time) (running : Bool) (now : Time) :
    (scheduler.setRunning running now).1.timerClock =
      scheduler.timerClock.obey (.setRunning running) now := by
  by_cases same : running = scheduler.running
  · rw [setRunning, if_pos same, TimerClock.obey, if_pos]
    exact same
  · cases running with
    | true =>
        simp only [setRunning, TimerClock.obey, timerClock, if_neg same, if_true, restartClocks]
    | false =>
        simp only [setRunning, TimerClock.obey, timerClock, if_neg same, Bool.false_eq_true,
          if_false]

/-- What a command does to the clock of the timers can be told without the machine. -/
theorem handle_timerClock {command : Command}
    (answered : (scheduler.handle command now).answer = .ok ()) :
    (scheduler.handle command now).state.timerClock = scheduler.timerClock.obey command now := by
  cases command with
  | setRunning running => exact scheduler.setRunning_timerClock running now
  | setKey index pressed =>
      obtain ⟨_, _, frame⟩ := scheduler.handleKey_frame index pressed
      simp only [handle, timerClock, frame, TimerClock.obey]
  | reset =>
      rw [handle, reload_answer] at answered
      by_cases fits : scheduler.program.length ≤ 3584
      · rw [handle, reload_of_fits scheduler fits]
        rfl
      · rw [if_neg fits] at answered
        cases answered
  | quit => rfl
  | stray text => rfl
  | unwritable reason => rfl

theorem drain_timerClock {inbox : List Command}
    (answered : (scheduler.drain now inbox.length inbox).answer = .ok ())
    (awake : (scheduler.drain now inbox.length inbox).state.1.quit = false) :
    (scheduler.drain now inbox.length inbox).state.1.timerClock =
      scheduler.timerClock.obeyAll inbox now := by
  induction inbox generalizing scheduler with
  | nil => rfl
  | cons command inbox inductionHypothesis =>
      cases handled : (scheduler.handle command now).answer with
      | error error => simp [drain, handled] at answered
      | ok _ =>
          have first := handle_timerClock handled
          cases quit : (scheduler.handle command now).state.quit with
          | true => simp [drain, handled, quit] at awake
          | false =>
              simp only [List.length_cons, drain, handled, quit] at answered awake ⊢
              have later := inductionHypothesis answered awake
              rw [first] at later
              exact later

end Commands

/-! ## Catching up -/

section CatchingUp

variable (limit : Nat) (scheduler : Scheduler Time) (now : Time)

theorem ticksOf_instructionDeeds : ticksOf (scheduler.instructionDeeds limit now) = 0 := by
  apply List.countP_eq_zero.mpr
  intro deed member
  rcases mem_instructionDeeds member with ⟨_, rfl⟩ | ⟨_, rfl⟩ <;> simp [Deed.isTick]

theorem ticksOf_timerDeeds :
    ticksOf (scheduler.timerDeeds limit now) = (scheduler.runTimers limit now).ticks := by
  have late : ticksOf (scheduler.lateTicks now) = 0 := by
    rw [lateTicks]
    split <;> rfl
  rw [timerDeeds, ticksOf_append, late]
  simp [ticksOf, Deed.isTick, List.countP_replicate]

omit [Clock Time] in
theorem ticksOf_obeying (commands : List Command) : ticksOf (obeying commands now) = 0 := by
  simp [ticksOf, obeying, List.countP_map, Function.comp_def, Deed.isTick]

theorem runInstructions_timerClock :
    (scheduler.runInstructions limit now).scheduler.timerClock = scheduler.timerClock := by
  obtain ⟨late, dropped⟩ := scheduler.dropLateCycles_frame now
  obtain ⟨machine, due, ran⟩ := (scheduler.runInstructions_batched limit now).frame
  rw [ran, dropped]
  rfl

variable {limit scheduler now}

theorem runTimers_timerClock (running : scheduler.running = true)
    (caughtUp : (scheduler.runTimers limit now).caughtUp = true) :
    scheduler.timerClock.Advances now (scheduler.runTimers limit now).ticks
      (scheduler.runTimers limit now).scheduler.timerClock := by
  have ticked := scheduler.runTimers_ticked limit now
  have moved := ticked.movedOn
  have dueUntil := moved.dueUntil (ticked.caughtUp_iff.mp caughtUp)
  have due : (scheduler.dropLateTicks now).nextTimer =
      TimerClock.onTime scheduler.nextTimer now := by
    rw [dropLateTicks, TimerClock.onTime]
    split <;> rfl
  have stillRunning : (scheduler.runTimers limit now).scheduler.running = true := by
    obtain ⟨_, _, frame⟩ := ticked.frame
    obtain ⟨_, dropped⟩ := scheduler.dropLateTicks_frame now
    rw [frame, dropped]
    exact running
  rw [due] at moved dueUntil
  rw [timerClock, timerClock, running, stillRunning, moved.left]
  exact .runs dueUntil

theorem catchUp_timerClock
    (caughtUp : (scheduler.catchUp limit now).2.1 = none ∨
      (scheduler.catchUp limit now).2.1 = some .programEnded) :
    scheduler.timerClock.Advances now (ticksOf (scheduler.catchUpDeeds limit now))
      (scheduler.catchUp limit now).1.timerClock := by
  cases running : scheduler.running with
  | false =>
      simp only [catchUp, catchUpDeeds, timerClock, running, Bool.false_eq_true, if_false]
      exact .paused
  | true =>
      have same := scheduler.runInstructions_timerClock limit now
      have silent := scheduler.ticksOf_instructionDeeds limit now
      simp only [catchUp, catchUpDeeds, running, if_true, ticksOf_append, silent] at caughtUp ⊢
      generalize scheduler.runInstructions limit now = batch at same caughtUp ⊢
      have stillRunning : batch.scheduler.running = true :=
        (congrArg TimerClock.running same).trans running
      have timers := @runTimers_timerClock Time _ limit batch.scheduler now stillRunning
      have counted := batch.scheduler.ticksOf_timerDeeds limit now
      rw [same] at timers
      cases ending : batch.ending with
      | interrupted interruption =>
          cases interruption <;> simp [ending, Interruption.ending] at caughtUp
      | exhausted => simp [ending] at caughtUp
      | caughtUp | awaitingKey | programEnded =>
          simp only [ending] at caughtUp ⊢
          cases inTime : (batch.scheduler.runTimers limit now).caughtUp with
          | false => simp [inTime] at caughtUp
          | true =>
              rw [counted, Nat.zero_add, if_pos rfl]
              exact timers inTime

end CatchingUp

/-! ## Turns -/

section Turn

variable {limit : Nat} {scheduler : Scheduler Time} {inbox : List Command} {now : Time}

/-- A turn that catches up moves the clock of the timers as its commands and its time say. -/
theorem turn_timerClock (caughtUp : (scheduler.turn limit inbox now).CatchesUp) :
    (scheduler.timerClock.obeyAll inbox now).Advances now
      (ticksOf (scheduler.turnDeeds limit inbox now))
      (scheduler.turn limit inbox now).scheduler.timerClock := by
  have drained := @drain_timerClock Time _ scheduler now inbox
  simp only [Turn.CatchesUp, turn] at caughtUp
  simp only [turn, turnDeeds, ticksOf_append, ticksOf_obeying, Nat.zero_add]
  generalize scheduler.drain now inbox.length inbox = obeyed at drained caughtUp ⊢
  cases answer : obeyed.answer with
  | error error => simp [answer, close] at caughtUp
  | ok _ =>
      cases quit : obeyed.state.1.quit with
      | true => simp [answer, quit, close] at caughtUp
      | false =>
          have worked := @catchUp_timerClock Time _ limit obeyed.state.1 now
          rw [drained answer quit] at worked
          simp only [answer, quit, Bool.false_eq_true, if_false, workDeeds, ticksOf_append]
            at caughtUp ⊢
          generalize obeyed.state.1.catchUp limit now = reached at worked caughtUp ⊢
          obtain ⟨after, ending, log⟩ := reached
          cases ending with
          | none => exact worked (Or.inl rfl)
          | some ending =>
              cases ending with
              | programEnded => exact worked (Or.inr rfl)
              | _ => simp [close] at caughtUp

end Turn

/-! ## Two runs -/

section Runs

variable {limit : Nat} {first second : Scheduler Time} {firstInbox secondInbox : List Command}
  {firstTicks secondTicks : List (Tick Time)} {firstTurn secondTurn : Turn Time} {index : Nat}

/-- Two turns whose clocks agree and whose commands steer alike tick equally often. -/
theorem turns_alike {now : Time} (alike : first.timerClock = second.timerClock)
    (steered : firstInbox.filter Command.steers = secondInbox.filter Command.steers)
    (firstCaughtUp : (first.turn limit firstInbox now).CatchesUp)
    (secondCaughtUp : (second.turn limit secondInbox now).CatchesUp) :
    ticksOf (first.turnDeeds limit firstInbox now) =
        ticksOf (second.turnDeeds limit secondInbox now) ∧
      (first.turn limit firstInbox now).scheduler.timerClock =
        (second.turn limit secondInbox now).scheduler.timerClock := by
  have obeyed : first.timerClock.obeyAll firstInbox now =
      second.timerClock.obeyAll secondInbox now := by
    rw [← TimerClock.obeyAll_filter, steered, TimerClock.obeyAll_filter, alike]
  have firstAdvances := turn_timerClock firstCaughtUp
  rw [obeyed] at firstAdvances
  exact firstAdvances.unique (turn_timerClock secondCaughtUp)

/-- By induction over the turns of both runs at once. -/
theorem runs_alike (alike : first.timerClock = second.timerClock)
    (steered : steering firstInbox firstTicks = steering secondInbox secondTicks)
    (firstMet : (first.turns limit firstInbox firstTicks)[index]? = some firstTurn)
    (secondMet : (second.turns limit secondInbox secondTicks)[index]? = some secondTurn)
    (firstCaughtUp : firstTurn.CatchesUp) (secondCaughtUp : secondTurn.CatchesUp) :
    ticksOf ((first.history limit firstInbox firstTicks).take (index + 1)).flatten =
        ticksOf ((second.history limit secondInbox secondTicks).take (index + 1)).flatten ∧
      firstTurn.scheduler.timerClock = secondTurn.scheduler.timerClock := by
  induction firstTicks generalizing first second firstInbox secondInbox secondTicks index with
  | nil => cases firstMet
  | cons firstTick firstTicks inductionHypothesis =>
      cases secondTicks with
      | nil => cases secondMet
      | cons secondTick secondTicks =>
          obtain ⟨here, later⟩ := List.cons.inj steered
          obtain ⟨now, firstArrivals⟩ := firstTick
          obtain ⟨_, secondArrivals⟩ := secondTick
          obtain ⟨rfl, commands⟩ := Prod.mk.inj here
          cases index with
          | zero =>
              rw [turns_cons] at firstMet secondMet
              obtain rfl := Option.some.inj firstMet
              obtain rfl := Option.some.inj secondMet
              obtain ⟨ticked, clock⟩ := turns_alike alike commands firstCaughtUp secondCaughtUp
              exact ⟨by simpa [history] using ticked, clock⟩
          | succ index =>
              obtain ⟨firstGoesOn, firstLater, firstSplit⟩ := met_later firstMet
              obtain ⟨secondGoesOn, secondLater, secondSplit⟩ := met_later secondMet
              rw [firstSplit, secondSplit]
              obtain ⟨ticked, clock⟩ :=
                turns_alike alike commands (.inl firstGoesOn) (.inl secondGoesOn)
              rw [turn_empties limit _ _ _ firstGoesOn] at firstLater ⊢
              rw [turn_empties limit _ _ _ secondGoesOn] at secondLater ⊢
              obtain ⟨sum, reached⟩ := inductionHypothesis clock later firstLater secondLater
              simp only [List.take_succ_cons, List.flatten_cons, ticksOf_append]
              exact ⟨by rw [ticked, sum], reached⟩

end Runs

/-- The ticks of the timers do not depend on the program.  Two runs that begin at one time, both
running or both paused, and that read the same times and obey the same steering commands in each
turn agree after every turn that catches up: both are running or both paused, their timers are due
at the same time, and have ticked equally often since the beginning. -/
theorem ticks_ignore_program {first second : Scheduler Time}
    (running : first.running = second.running) (began : Time) (limit : Nat)
    {firstInbox secondInbox : List Command} {firstTicks secondTicks : List (Tick Time)}
    (steered : steering firstInbox firstTicks = steering secondInbox secondTicks) :
    let firstBegun := (first.begin began).1
    let secondBegun := (second.begin began).1
    ∀ (index : Nat) (firstTurn secondTurn : Turn Time),
      (firstBegun.turns limit firstInbox firstTicks)[index]? = some firstTurn →
      (secondBegun.turns limit secondInbox secondTicks)[index]? = some secondTurn →
      firstTurn.CatchesUp → secondTurn.CatchesUp →
      let firstDeeds := ((firstBegun.history limit firstInbox firstTicks).take (index + 1)).flatten
      let secondDeeds :=
        ((secondBegun.history limit secondInbox secondTicks).take (index + 1)).flatten
      (firstBegun.performAll firstDeeds).scheduler = firstTurn.scheduler ∧
        (secondBegun.performAll secondDeeds).scheduler = secondTurn.scheduler ∧
        firstTurn.scheduler.running = secondTurn.scheduler.running ∧
        firstTurn.scheduler.nextTimer = secondTurn.scheduler.nextTimer ∧
        ticksOf firstDeeds = ticksOf secondDeeds := by
  intro firstBegun secondBegun index firstTurn secondTurn firstMet secondMet firstCaughtUp
    secondCaughtUp firstDeeds secondDeeds
  have alike : firstBegun.timerClock = secondBegun.timerClock :=
    congrArg (TimerClock.mk · (began + Clock.timerPeriod)) running
  obtain ⟨ticked, clock⟩ := runs_alike alike steered firstMet secondMet firstCaughtUp secondCaughtUp
  obtain ⟨sameRunning, sameDue⟩ := TimerClock.mk.inj clock
  exact ⟨(performAll_history firstMet).1, (performAll_history secondMet).1, sameRunning, sameDue,
    ticked⟩

/-- A program that waits for a key and one that jumps on the spot at another rate, both paused,
resumed and reset. -/
theorem ticks_ignore_program_waiting :
    let fresh := fun (rate : Int) (shiftUsesVy : Bool) (program : List Byte) =>
      ((Machine.powerOn (.whole rate) shiftUsesVy (.ofScript [])).load program).state
    let first : Scheduler Rat := (start (fresh 600 false [0xf0, 0x0a]) [0xf0, 0x0a] true).1
    let second : Scheduler Rat := (start (fresh 60 true [0x12, 0x00]) [0x12, 0x00] true).1
    let firstTicks : List (Tick Rat) :=
      [⟨1 / 50, [.setKey 3 true]⟩, ⟨1 / 25, [.setRunning false]⟩,
        ⟨3 / 10, [.setKey 3 false, .setRunning true, .reset]⟩, ⟨7 / 20, []⟩]
    let secondTicks : List (Tick Rat) :=
      [⟨1 / 50, []⟩, ⟨1 / 25, [.setKey 99 true, .setRunning false]⟩,
        ⟨3 / 10, [.setRunning true, .reset]⟩, ⟨7 / 20, [.setKey 1 true]⟩]
    steering [] firstTicks = steering [] secondTicks ∧
      ∃ firstTurn secondTurn : Turn Rat,
        ((first.begin 0).1.turns 50 [] firstTicks)[3]? = some firstTurn ∧
        ((second.begin 0).1.turns 50 [] secondTicks)[3]? = some secondTurn ∧
        firstTurn.scheduler.machine.waiting = true ∧
        secondTurn.scheduler.machine.waiting = false ∧
        firstTurn.scheduler.nextTimer = secondTurn.scheduler.nextTimer ∧
        secondTurn.scheduler.nextTimer = 11 / 30 ∧
        ticksOf ((first.begin 0).1.history 50 [] firstTicks).flatten = 4 := by
  intro fresh first second firstTicks secondTicks
  have steered : steering [] firstTicks = steering [] secondTicks := by decide +kernel
  have sameRunning : first.running = second.running := by decide +kernel
  have agree := ticks_ignore_program sameRunning 0 50 steered
  have firstDone : (((first.begin 0).1.turns 50 [] firstTicks)[3]?.map fun turn =>
      (turn.ending, turn.scheduler.machine.waiting)) = some (none, true) := by
    decide +kernel
  have secondDone : (((second.begin 0).1.turns 50 [] secondTicks)[3]?.map fun turn =>
      (turn.ending, turn.scheduler.machine.waiting, turn.scheduler.nextTimer)) =
        some (none, false, 11 / 30) := by
    decide +kernel
  have ticked : ticksOf ((first.begin 0).1.history 50 [] firstTicks).flatten = 4 := by
    decide +kernel
  obtain ⟨firstTurn, firstMet, firstRead⟩ := Option.map_eq_some_iff.mp firstDone
  obtain ⟨secondTurn, secondMet, secondRead⟩ := Option.map_eq_some_iff.mp secondDone
  obtain ⟨firstGoesOn, firstWaits⟩ := Prod.mk.inj firstRead
  obtain ⟨secondGoesOn, secondState⟩ := Prod.mk.inj secondRead
  obtain ⟨secondAwake, secondDue⟩ := Prod.mk.inj secondState
  obtain ⟨_, _, _, due, _⟩ :=
    agree 3 firstTurn secondTurn firstMet secondMet (Or.inl firstGoesOn) (Or.inl secondGoesOn)
  exact ⟨steered, firstTurn, secondTurn, firstMet, secondMet, firstWaits, secondAwake, due,
    secondDue, ticked⟩

end Scheduler

end ChipEight
