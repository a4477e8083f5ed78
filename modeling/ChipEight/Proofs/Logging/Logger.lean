import ChipEight.Machine.Operation

/-!
# Loggers

A logger is asked for its level in one place only, where it spares the line that traces an
instruction, and otherwise drops what it does not keep.  With any logger the machine does what it
does with the complete one, and of that log the logger keeps what is visible from its level.  Each
operation has an equation that says so and ends in `_seen`.
-/

namespace ChipEight

/-- What is left of a log without its lowest level. -/
def withoutDebug (log : List LogEvent) : List LogEvent :=
  log.filter fun event => event.level ≠ .debug

/-- The lowest level is the only one below `INFO`. -/
@[simp]
theorem visibleAt_info (log : List LogEvent) : visibleAt .info log = withoutDebug log := by
  refine List.filter_congr fun event _ => ?_
  cases event.level <;> rfl

section Visible

variable (least : Level)

@[simp]
theorem visibleAt_nil : visibleAt least [] = [] :=
  rfl

@[simp]
theorem visibleAt_append (earlier later : List LogEvent) :
    visibleAt least (earlier ++ later) = visibleAt least earlier ++ visibleAt least later :=
  List.filter_append ..

theorem visibleAt_cons (event : LogEvent) (log : List LogEvent) :
    visibleAt least (event :: log) = visibleAt least [event] ++ visibleAt least log :=
  visibleAt_append least [event] log

end Visible

/-- What a reader sees of an outcome who asked for a level. -/
def Outcome.seenFrom {State Failure Answer : Type} (least : Level)
    (outcome : Outcome State Failure Answer) : Outcome State Failure Answer :=
  { outcome with log := visibleAt least outcome.log }

namespace Logger

variable (logger : Logger)

/-- A logger keeps of an event what is visible from its level. -/
theorem record_eq (event : LogEvent) : logger.record event = visibleAt logger.least [event] := by
  rw [record, visibleAt, List.filter_cons]
  rfl

theorem flatMap_record (log : List LogEvent) :
    log.flatMap logger.record = visibleAt logger.least log := by
  induction log with
  | nil => rfl
  | cons event log inductionHypothesis =>
      rw [List.flatMap_cons, record_eq, inductionHypothesis]
      exact (visibleAt_cons ..).symm

/-- A logger that is asked in advance keeps the line that it would keep. -/
theorem trace_eq (machine : Machine) (opcode : Opcode) :
    (if logger.enabled .debug then logger.record (.executing machine.pc opcode) else []) =
      visibleAt logger.least [.executing machine.pc opcode] := by
  rw [← record_eq]
  split
  next => rfl
  next disabled => exact (if_neg disabled).symm

end Logger

namespace Machine

variable (machine : Machine) (logger : Logger)

/-- Each branch records one line after the other, so a logger sees its part of the full log. -/
theorem execute_seen (opcode : Opcode) :
    machine.execute opcode logger = (machine.execute opcode).seenFrom logger.least := by
  rw [execute, execute, logger.trace_eq, Logger.trace_eq .complete]
  cases Instruction.ofOpcode? opcode with
  | none =>
      rw [Logger.record_complete, logger.record_eq]
      exact congrArg (Outcome.mk _ _) (visibleAt_append _ [_] [_]).symm
  | some instruction =>
      dsimp only
      cases perform { machine with opcode := opcode } instruction <;> rfl

theorem cycle_seen : machine.cycle logger = machine.cycle.seenFrom logger.least := by
  rw [cycle, cycle]
  split
  · split
    · rfl
    · split
      · rfl
      · rw [execute_seen]
        rfl
  · rfl

theorem load_seen (program : List Byte) :
    machine.load program logger = (machine.load program).seenFrom logger.least := by
  rw [load, load]
  split
  · rw [Logger.record_complete, logger.record_eq]
    rfl
  · rfl

theorem loadContent_seen (path : String) (content : Except OpenFailure (List Byte)) :
    machine.loadContent path content logger =
      (machine.loadContent path content).seenFrom logger.least := by
  simp only [loadContent, Logger.record_complete, logger.record_eq, machine.load_seen logger]
  split
  · rfl
  · cases content with
    | error failure => rfl
    | ok program => exact congrArg (Outcome.mk _ _) (visibleAt_cons _ _ _).symm

theorem endWait_seen (index : Int) :
    machine.endWait index logger =
      ((machine.endWait index).1, visibleAt logger.least (machine.endWait index).2) := by
  rw [endWait, endWait]
  split
  · rfl
  · rw [Logger.record_complete, logger.record_eq]

/-- Every request to a machine is carried out alike with every logger. -/
theorem apply_seen (operation : Operation) :
    machine.apply operation logger = (machine.apply operation).seenFrom logger.least := by
  cases operation with
  | execute opcode =>
      rw [apply, execute_seen]
      rfl
  | cycle =>
      rw [apply, cycle_seen]
      rfl
  | load program =>
      rw [apply, load_seen]
      rfl
  | reset =>
      rw [apply, logger.record_eq]
      rfl
  | endWait index =>
      rw [apply, endWait_seen]
      rfl
  | setKey index pressed =>
      rw [apply, apply]
      cases machine.setKeyAt index pressed <;> rfl
  | tickTimers | setShiftMode usesVy | draw x y sprite => rfl

end Machine

end ChipEight
