import ChipEight.Proofs.Logging.Logger
import ChipEight.Scheduler.Turn

/-!
# The scheduler with a logger

The scheduler does the same with every logger, from the commands that it obeys to whole runs.  As
for the machine, each operation has an equation that ends in `_seen`.
-/

namespace ChipEight

/-- What a reader sees of a batch of instructions. -/
def Batch.seenFrom {Time : Type} (least : Level) (batch : Batch Time) : Batch Time :=
  { batch with log := visibleAt least batch.log }

/-- What a reader sees of a turn. -/
def Turn.seenFrom {Time : Type} (least : Level) (turn : Turn Time) : Turn Time :=
  { turn with log := visibleAt least turn.log }

namespace Scheduler

variable {Time : Type} [Clock Time] (scheduler : Scheduler Time) (logger : Logger)

/-! ## Commands -/

omit [Clock Time] in
theorem pressKey_seen (key : Key) :
    scheduler.pressKey key logger =
      ((scheduler.pressKey key).1, visibleAt logger.least (scheduler.pressKey key).2) := by
  rw [pressKey, pressKey]
  split
  · split
    · rfl
    · rw [Machine.endWait_seen, Logger.record_complete, logger.record_eq]
      exact congrArg (Prod.mk _) (visibleAt_cons _ _ _).symm
  · rfl

omit [Clock Time] in
/-- An index that cannot be written fails with every logger, since it is written in any case. -/
theorem handleKey_seen (index : Int) (pressed : Bool) :
    scheduler.handleKey index pressed logger =
      (scheduler.handleKey index pressed).seenFrom logger.least := by
  rw [handleKey, handleKey]
  cases Key.ofIndex? index with
  | none =>
      rw [Logger.record_complete, logger.record_eq]
      cases Text.requireWritable scheduler.digitLimit index <;> rfl
  | some key =>
      cases pressed with
      | true =>
          simp only [scheduler.pressKey_seen logger]
          rfl
      | false => rfl

theorem setRunning_seen (running : Bool) (now : Time) :
    scheduler.setRunning running now logger =
      ((scheduler.setRunning running now).1,
        visibleAt logger.least (scheduler.setRunning running now).2) := by
  simp only [setRunning, Logger.record_complete, logger.record_eq]
  split
  · rfl
  · split <;> rfl

theorem reload_seen (now : Time) :
    scheduler.reload now logger = (scheduler.reload now).seenFrom logger.least := by
  simp only [reload, scheduler.machine.reset.load_seen logger, Logger.record_complete,
    logger.record_eq, Outcome.seenFrom, ← visibleAt_append]
  cases (scheduler.machine.reset.load scheduler.program).answer <;> rfl

theorem handle_seen (command : Command) (now : Time) :
    scheduler.handle command now logger =
      (scheduler.handle command now).seenFrom logger.least := by
  cases command with
  | setRunning running =>
      rw [handle, setRunning_seen]
      rfl
  | setKey index pressed => exact scheduler.handleKey_seen logger index pressed
  | reset => exact scheduler.reload_seen logger now
  | quit | stray text =>
      rw [handle, logger.record_eq]
      rfl
  | unwritable reason => rfl

/-- A queue is obeyed alike with every logger, also where one of its commands fails. -/
theorem drain_seen (now : Time) (count : Nat) (inbox : List Command) :
    scheduler.drain now count inbox logger =
      (scheduler.drain now count inbox).seenFrom logger.least := by
  induction count generalizing scheduler inbox with
  | zero => rfl
  | succ count inductionHypothesis =>
      cases inbox with
      | nil => rfl
      | cons command inbox =>
          rw [drain, drain, handle_seen]
          simp only [inductionHypothesis, Outcome.seenFrom]
          cases (scheduler.handle command now).answer with
          | error error => rfl
          | ok _ =>
              dsimp only
              split
              · rfl
              · rw [visibleAt_append]

/-! ## Clocks -/

theorem cycle_seen (period : Time) :
    scheduler.cycle period logger = (scheduler.cycle period).seenFrom logger.least := by
  rw [cycle, Machine.cycle_seen]
  rfl

/-- What a batch reported before stands before what it reports with the same logger. -/
theorem cycleUntil_seen (period now : Time) (limit cycles : Nat) (recent : List LogEvent) :
    cycleUntil period now limit cycles (visibleAt logger.least recent) scheduler logger =
      (cycleUntil period now limit cycles recent scheduler).seenFrom logger.least := by
  induction limit generalizing scheduler cycles recent with
  | zero => simp [cycleUntil, Batch.seenFrom, visibleAt]
  | succ limit inductionHypothesis =>
      have reversed (log : List LogEvent) :
          (visibleAt logger.least log).reverse = visibleAt logger.least log.reverse :=
        List.filter_reverse.symm
      simp only [cycleUntil, scheduler.cycle_seen logger, Outcome.seenFrom, reversed,
        ← visibleAt_append]
      split
      · split
        · rfl
        · cases (scheduler.cycle period).answer with
          | error interruption => rfl
          | ok ended =>
              cases ended with
              | true => rfl
              | false => exact inductionHypothesis ..
      · rfl

theorem runInstructions_seen (limit : Nat) (now : Time) :
    scheduler.runInstructions limit now logger =
      (scheduler.runInstructions limit now).seenFrom logger.least :=
  cycleUntil_seen _ logger _ _ _ _ []

/-- Both batches are seen, and neither looks at what is logged. -/
theorem catchUp_seen (limit : Nat) (now : Time) :
    scheduler.catchUp limit now logger =
      let caughtUp := scheduler.catchUp limit now
      (caughtUp.1, caughtUp.2.1, visibleAt logger.least caughtUp.2.2) := by
  simp only [catchUp, scheduler.runInstructions_seen logger, Batch.seenFrom]
  split
  · cases (scheduler.runInstructions limit now).ending with
    | interrupted interruption | exhausted => rfl
    | caughtUp | awaitingKey | programEnded =>
        dsimp only
        split <;> rfl
  · rfl

/-! ## Turns -/

omit [Clock Time] in
theorem close_seen (inbox : List Command) (messages : List Message) (log : List LogEvent)
    (ending : Ending) :
    scheduler.close inbox messages (visibleAt logger.least log) ending logger =
      (scheduler.close inbox messages log ending).seenFrom logger.least := by
  simp only [close, Turn.seenFrom, Logger.flatMap_record_complete, Logger.record_complete,
    logger.flatMap_record, logger.record_eq, visibleAt_append]

/-- A turn is taken alike with every logger. -/
theorem turn_seen (limit : Nat) (inbox : List Command) (now : Time) :
    scheduler.turn limit inbox now logger =
      (scheduler.turn limit inbox now).seenFrom logger.least := by
  simp only [turn, scheduler.drain_seen logger, Outcome.seenFrom]
  generalize scheduler.drain now inbox.length inbox = drained
  cases drained.answer with
  | error error => exact close_seen ..
  | ok _ =>
      dsimp only
      split
      · exact close_seen ..
      · simp only [catchUp_seen _ logger, ← visibleAt_append]
        generalize drained.state.1.catchUp limit now = reached
        obtain ⟨caughtUp, ending, log⟩ := reached
        cases ending with
        | none => rfl
        | some ending =>
            cases ending with
            | exhausted => rfl
            | _ => exact close_seen ..

/-- The turns of a run hand on only the scheduler and its inbox, which no logger touches. -/
theorem turns_seen (limit : Nat) (inbox : List Command) (ticks : List (Tick Time)) :
    scheduler.turns limit inbox ticks logger =
      (scheduler.turns limit inbox ticks).map (Turn.seenFrom logger.least) := by
  induction ticks generalizing scheduler inbox with
  | nil => rfl
  | cons tick ticks inductionHypothesis =>
      rw [turns, turns, turn_seen]
      simp only [inductionHypothesis]
      obtain ⟨reached, left, messages, log, ending⟩ :=
        scheduler.turn limit (inbox ++ tick.arrivals) tick.now
      cases ending <;> rfl

theorem begin_seen (now : Time) :
    scheduler.begin now logger =
      ((scheduler.begin now).1, visibleAt logger.least (scheduler.begin now).2) := by
  rw [begin, logger.record_eq]
  rfl

end Scheduler

end ChipEight
