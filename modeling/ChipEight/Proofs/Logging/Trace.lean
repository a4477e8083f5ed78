import ChipEight.Proofs.Machine.Calls
import ChipEight.Proofs.Scheduler.Discipline

/-!
# The trace of a program

The log holds a line for each word that a program executes, whether it is an instruction, one that
faults, or unknown.  Nothing else leaves such a line, so that the lines of a run are those of its
cycles, in order.
-/

namespace ChipEight

/-- The line that traces a word. -/
def LogEvent.isTrace : LogEvent → Bool
  | .executing .. => true
  | _ => false

/-- The lines of a log that trace words, in order. -/
def tracesOf (log : List LogEvent) : List LogEvent :=
  log.filter LogEvent.isTrace

@[simp]
theorem tracesOf_append (earlier later : List LogEvent) :
    tracesOf (earlier ++ later) = tracesOf earlier ++ tracesOf later :=
  List.filter_append ..

/-! ## Words -/

namespace Machine

/-- The trace of a request: a line for the word that it executes, if it executes one. -/
def trace (machine : Machine) (operation : Operation) : List LogEvent :=
  (machine.executes? operation).toList.map (.executing machine.pc)

variable (machine : Machine)

/-- A word leaves one trace, whether it is carried out, refused or unknown. -/
theorem tracesOf_execute (word : Opcode) :
    tracesOf (machine.execute word).log = [.executing machine.pc word] := by
  rw [execute]
  cases Instruction.ofOpcode? word with
  | none => rfl
  | some instruction =>
      dsimp only
      cases perform { machine with opcode := word } instruction <;> rfl

/-- A cycle that finds the program at its end, waiting or outside its memory leaves no trace. -/
theorem tracesOf_cycle : tracesOf machine.cycle.log = machine.trace .cycle := by
  rcases machine.cycle_cases with
    ended | ⟨room, waiting⟩ | ⟨below, awake⟩ | ⟨inside, room, awake⟩
  · have idle : machine.executes? .cycle = none := if_neg fun ready => by omega
    rw [cycle_of_ended ended, trace, idle]
    rfl
  · have idle : machine.executes? .cycle = none := if_neg fun ready => by simp_all
    rw [cycle_of_waiting room waiting, trace, idle]
    rfl
  · have idle : machine.executes? .cycle = none := if_neg fun ready => by omega
    rw [cycle_of_below below awake, trace, idle]
    rfl
  · have executes : machine.executes? .cycle = some machine.nextWord :=
      if_pos ⟨inside, room, awake⟩
    rw [cycle_of_executing inside room awake, trace, executes]
    exact machine.tracesOf_execute machine.nextWord

-- An unknown word and one that faults are traced, but no cycle behind the end of the program.
example :
    let machine := ((powerOn (.whole 600) true (.ofScript [])).load [1, 2, 0, 0xEE]).state
    let ended : Machine := { machine with pc := 0xFFE }
    tracesOf machine.cycle.log = [.executing 0x200 0x0102] ∧
      tracesOf machine.cycle.state.cycle.log = [.executing 0x202 0x00EE] ∧
      machine.cycle.state.cycle.answer.isOk = false ∧ tracesOf ended.cycle.log = [] := by
  decide +kernel

theorem tracesOf_load (program : List Byte) : tracesOf (machine.load program).log = [] := by
  rw [load]
  split <;> rfl

theorem tracesOf_endWait (index : Int) : tracesOf (machine.endWait index).2 = [] := by
  rw [endWait]
  split <;> rfl

/-- An operation traces the word that it executes, if it executes one. -/
theorem tracesOf_apply (operation : Operation) :
    tracesOf (machine.apply operation).log = machine.trace operation := by
  cases operation with
  | execute word => exact machine.tracesOf_execute word
  | cycle => exact machine.tracesOf_cycle
  | load program => exact machine.tracesOf_load program
  | endWait index => exact machine.tracesOf_endWait index
  | setKey index pressed =>
      rw [apply]
      cases machine.setKeyAt index pressed <;> rfl
  | tickTimers | reset | setShiftMode usesVy | draw x y sprite => rfl

theorem tracesOf_loadContent (path : String) (content : Except OpenFailure (List Byte)) :
    tracesOf (machine.loadContent path content).log = [] := by
  unfold loadContent
  split
  · rfl
  · cases content with
    | error failure => rfl
    | ok program => exact machine.tracesOf_load program

end Machine

/-! ## Deeds -/

/-- The trace of a deed: that of a cycle, if it is one. -/
def Moment.trace {Time : Type} (moment : Moment Time) : List LogEvent :=
  if moment.deed.isCycle then moment.scheduler.machine.trace .cycle else []

namespace Scheduler

variable {Time : Type} [Clock Time] (scheduler : Scheduler Time)

omit [Clock Time] in
theorem tracesOf_handleKey (index : Int) (pressed : Bool) :
    tracesOf (scheduler.handleKey index pressed).log = [] := by
  rw [handleKey]
  cases Key.ofIndex? index with
  | none =>
      dsimp only
      split <;> rfl
  | some key =>
      cases pressed with
      | false => rfl
      | true =>
          dsimp only
          rw [if_pos rfl, pressKey]
          split
          · split
            · rfl
            · exact scheduler.machine.tracesOf_endWait key.val
          · rfl

/-- No command executes a word. -/
theorem tracesOf_handle (command : Command) (now : Time) :
    tracesOf (scheduler.handle command now).log = [] := by
  cases command with
  | setRunning running =>
      change tracesOf (scheduler.setRunning running now).2 = []
      rw [setRunning]
      split
      · rfl
      · split <;> rfl
  | setKey index pressed => exact scheduler.tracesOf_handleKey index pressed
  | reset =>
      rw [handle, reload]
      cases (scheduler.machine.reset.load scheduler.program).answer <;>
        exact scheduler.machine.reset.tracesOf_load scheduler.program
  | quit | stray text | unwritable reason => rfl

theorem tracesOf_drain (now : Time) (count : Nat) (inbox : List Command) :
    tracesOf (scheduler.drain now count inbox).log = [] := by
  induction count generalizing scheduler inbox with
  | zero => rfl
  | succ count inductionHypothesis =>
      cases inbox with
      | nil => rfl
      | cons command inbox =>
          have handled := scheduler.tracesOf_handle command now
          rw [drain]
          cases (scheduler.handle command now).answer with
          | error error => exact handled
          | ok _ =>
              dsimp only
              split
              · exact handled
              · rw [tracesOf_append, handled, inductionHypothesis]
                rfl

theorem tracesOf_perform (deed : Deed Time) :
    tracesOf (scheduler.perform deed).log = Moment.trace ⟨scheduler, deed⟩ := by
  cases deed with
  | obey command now => exact scheduler.tracesOf_handle command now
  | cycle period => exact scheduler.machine.tracesOf_cycle
  | dueCycle | dueTick | tick | publish => rfl

/-- The traces of a history are those of its moments, one after the other. -/
theorem tracesOf_performAll (deeds : List (Deed Time)) :
    tracesOf (scheduler.performAll deeds).log =
      (scheduler.moments deeds).flatMap Moment.trace := by
  induction deeds generalizing scheduler with
  | nil => rfl
  | cons deed deeds inductionHypothesis =>
      rw [performAll, tracesOf_append, tracesOf_perform, inductionHypothesis]
      rfl

omit [Clock Time] in
theorem tracesOf_lastReport (ending : Option Ending) : tracesOf (lastReport ending) = [] := by
  rcases ending with _ | _ | _ | _ | _ | _ | _ <;> rfl

/-- A run traces the words that its cycles execute. -/
theorem tracesOf_turns (limit : Nat) (inbox : List Command) (ticks : List (Tick Time)) :
    tracesOf ((scheduler.turns limit inbox ticks).flatMap Turn.log) =
      (scheduler.moments (scheduler.history limit inbox ticks).flatten).flatMap Moment.trace := by
  induction ticks generalizing scheduler inbox with
  | nil => rfl
  | cons tick ticks inductionHypothesis =>
      obtain ⟨reached, _, log, _⟩ :=
        scheduler.turn_deeds limit (inbox ++ tick.arrivals) tick.now
      have first : tracesOf (scheduler.turn limit (inbox ++ tick.arrivals) tick.now).log =
          (scheduler.moments
            (scheduler.turnDeeds limit (inbox ++ tick.arrivals) tick.now)).flatMap
              Moment.trace := by
        rw [log, tracesOf_append, tracesOf_lastReport, List.append_nil, tracesOf_performAll]
      simp only [turns_cons, history, List.flatMap_cons, List.flatten_cons, moments_append,
        List.flatMap_append, tracesOf_append, ← first, ← reached]
      cases (scheduler.turn limit (inbox ++ tick.arrivals) tick.now).ending with
      | some _ => rfl
      | none => exact congrArg (_ ++ ·) (inductionHypothesis _ _)

end Scheduler

end ChipEight
