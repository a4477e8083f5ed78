import ChipEight.Scheduler.CatchUp

/-!
# Turns of the scheduler

In every turn the scheduler obeys the commands that have arrived, catches up with its clocks and
tells the window what has changed.  A run is a sequence of turns, and its last message says that it
has ended, whatever the reason.
-/

namespace ChipEight

inductive Ending where
  | quit
  | programEnded
  | faulted (fault : Fault)
  /-- A number that an instruction works with strays. -/
  | strayed (error : AccessError)
  | commandFailed (error : CommandError)
  /-- A turn did not catch up with its clocks within the limit. -/
  | exhausted
  deriving DecidableEq

/-- The end of a run by an interruption. -/
def Interruption.ending : Interruption → Ending
  | .faulted fault => .faulted fault
  | .strayed error => .strayed error

/-- What the scheduler says about the end of a run before it says that it has finished. -/
def Ending.report : Ending → List LogEvent
  | .programEnded => [.programEnded]
  | .faulted fault => [.halted fault]
  | _ => []

/-- What a turn leaves behind: the scheduler, the commands that it did not obey, the messages that
it sent, what it reported, and the reason if it was the last one. -/
structure Turn (Time : Type) where
  scheduler : Scheduler Time
  inbox : List Command
  messages : List Message
  log : List LogEvent
  ending : Option Ending

/-- What happens between two turns: commands arrive, and the clock is read. -/
structure Tick (Time : Type) where
  now : Time
  arrivals : List Command

namespace Scheduler

variable {Time : Type} [Clock Time]

/-- Tells the window of a changed screen, and of a sound that starts or ends. -/
def publish (scheduler : Scheduler Time) : Scheduler Time × List Message :=
  let display := scheduler.machine.display
  let sounding := decide (0 < scheduler.machine.sound)
  ({ scheduler with
      machine := { scheduler.machine with display := { display with dirty := false } }
      sounding := sounding },
    (if display.dirty then [.display display.screen] else []) ++
      (if sounding = scheduler.sounding then [] else [.beep sounding]))

/-- Catches up with both clocks.  The timers tick in the turn in which the program ends, but not in
the one in which it faults. -/
def catchUp (limit : Nat) (scheduler : Scheduler Time) (now : Time)
    (logger : Logger := .complete) : Scheduler Time × Option Ending × List LogEvent :=
  if scheduler.running then
    let batch := scheduler.runInstructions limit now logger
    match batch.ending with
    | .interrupted interruption => (batch.scheduler, some interruption.ending, batch.log)
    | .exhausted => (batch.scheduler, some .exhausted, batch.log)
    | ending =>
        let ticked := batch.scheduler.runTimers limit now
        if ticked.caughtUp then
          (ticked.scheduler, if ending = .programEnded then some .programEnded else none,
            batch.log)
        else
          (ticked.scheduler, some .exhausted, batch.log)
  else
    (scheduler, none, [])

/-- The last turn of a run, after the messages and reports that it made before its end. -/
def close (scheduler : Scheduler Time) (inbox : List Command) (messages : List Message)
    (log : List LogEvent) (ending : Ending) (logger : Logger := .complete) : Turn Time :=
  ⟨scheduler, inbox, messages ++ [.finished],
    log ++ ending.report.flatMap logger.record ++ logger.record .schedulerFinished, some ending⟩

omit [Clock Time] in
theorem close_complete (scheduler : Scheduler Time) (inbox : List Command)
    (messages : List Message) (log : List LogEvent) (ending : Ending) :
    scheduler.close inbox messages log ending =
      ⟨scheduler, inbox, messages ++ [.finished], log ++ ending.report ++ [.schedulerFinished],
        some ending⟩ := by
  simp only [close, Logger.flatMap_record_complete, Logger.record_complete]

/-- One turn.  A turn that is asked to quit runs nothing and tells nothing but its end. -/
def turn (limit : Nat) (scheduler : Scheduler Time) (inbox : List Command) (now : Time)
    (logger : Logger := .complete) : Turn Time :=
  let drained := scheduler.drain now inbox.length inbox logger
  let (obedient, left) := drained.state
  match drained.answer with
  | .error error => obedient.close left [] drained.log (.commandFailed error) logger
  | .ok () =>
      if obedient.quit then
        obedient.close left [] drained.log .quit logger
      else
        let (caughtUp, ending, log) := obedient.catchUp limit now logger
        match ending with
        | none =>
            let (published, messages) := caughtUp.publish
            ⟨published, left, messages, drained.log ++ log, none⟩
        | some .programEnded =>
            let (published, messages) := caughtUp.publish
            published.close left messages (drained.log ++ log) .programEnded logger
        | some .exhausted => ⟨caughtUp, left, [], drained.log ++ log, some .exhausted⟩
        | some ending => caughtUp.close left [] (drained.log ++ log) ending logger

/-- The turns of a run, one for each tick, up to the first that ends it. -/
def turns (limit : Nat) (scheduler : Scheduler Time) (inbox : List Command)
    (ticks : List (Tick Time)) (logger : Logger := .complete) : List (Turn Time) :=
  match ticks with
  | [] => []
  | tick :: ticks =>
      let turn := scheduler.turn limit (inbox ++ tick.arrivals) tick.now logger
      match turn.ending with
      | some _ => [turn]
      | none => turn :: turns limit turn.scheduler turn.inbox ticks logger

/-- Begins a run: both clocks start. -/
def begin (scheduler : Scheduler Time) (now : Time) (logger : Logger := .complete) :
    Scheduler Time × List LogEvent :=
  (scheduler.restartClocks now, logger.record (.schedulerStarting scheduler.machine.clock))

end Scheduler

/-- More steps than a turn ever takes, also one whose clock does not move on. -/
def stepLimit : Nat := 1000000000

end ChipEight
