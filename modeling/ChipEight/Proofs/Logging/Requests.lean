import ChipEight.Proofs.Logging.Loop
import ChipEight.Proofs.Logging.Trace

/-!
# Requests and their log

The requests that may be made to a scheduler and to its machine are listed here, and served with a
logger at hand.  A logger that drops the lowest lines of the log loses nothing else, and what it
drops holds the trace of the program.
-/

namespace ChipEight

/-- What may be asked of a scheduler and of its machine. -/
inductive Request (Time : Type) where
  | machine (operation : Operation)
  | loadContent (path : String) (content : Except OpenFailure (List Byte))
  | command (command : Command) (now : Time)
  | key (index : Int) (pressed : Bool)
  /-- Obey a queue, but no more commands than it is said to hold. -/
  | drain (count : Nat) (inbox : List Command) (now : Time)
  | instructions (now : Time)
  | timers (now : Time)
  | publish

/-- What a request is answered. -/
inductive Reply where
  | carriedOut (answer : Except Refusal (Option Bool))
  | loaded (answer : Except LoadError (List Byte))
  | obeyed (answer : Except CommandError Unit) (left : List Command)
  | ran (ending : BatchEnding) (cycles : Nat)
  | ticked (caughtUp : Bool) (ticks : Nat)
  | done

/-- A request, the scheduler that it meets, and what it leaves behind. -/
structure Served (Time : Type) where
  met : Scheduler Time
  request : Request Time
  scheduler : Scheduler Time
  reply : Reply
  messages : List Message
  log : List LogEvent

/-- What a reader sees of a request that was served. -/
def Served.seenFrom {Time : Type} (least : Level) (served : Served Time) : Served Time :=
  { served with log := visibleAt least served.log }

def Served.withoutDebug {Time : Type} (served : Served Time) : Served Time :=
  { served with log := ChipEight.withoutDebug served.log }

def Turn.withoutDebug {Time : Type} (turn : Turn Time) : Turn Time :=
  { turn with log := ChipEight.withoutDebug turn.log }

section Seen

variable {Time : Type}

theorem Served.seenFrom_info :
    (Served.seenFrom .info : Served Time → Served Time) = Served.withoutDebug :=
  funext fun served => congrArg (fun log => { served with log := log }) (visibleAt_info _)

theorem Turn.seenFrom_info : (Turn.seenFrom .info : Turn Time → Turn Time) = Turn.withoutDebug :=
  funext fun turn => congrArg (fun log => { turn with log := log }) (visibleAt_info _)

end Seen

variable {Time : Type} [Clock Time]

/-- The trace of a request: a line for each word that it executes. -/
def Request.trace (limit : Nat) (scheduler : Scheduler Time) : Request Time → List LogEvent
  | .machine operation => scheduler.machine.trace operation
  | .instructions now =>
      (scheduler.moments (scheduler.instructionDeeds limit now)).flatMap Moment.trace
  | _ => []

namespace Scheduler

/-- Serves a request with a logger at hand. -/
def serve (limit : Nat) (scheduler : Scheduler Time) (request : Request Time)
    (logger : Logger := .complete) : Served Time :=
  match request with
  | .machine operation =>
      let applied := scheduler.machine.apply operation logger
      ⟨scheduler, request, { scheduler with machine := applied.state },
        .carriedOut applied.answer, [], applied.log⟩
  | .loadContent path content =>
      let loaded := scheduler.machine.loadContent path content logger
      ⟨scheduler, request, { scheduler with machine := loaded.state }, .loaded loaded.answer, [],
        loaded.log⟩
  | .command command now =>
      let handled := scheduler.handle command now logger
      ⟨scheduler, request, handled.state, .obeyed handled.answer [], [], handled.log⟩
  | .key index pressed =>
      let handled := scheduler.handleKey index pressed logger
      ⟨scheduler, request, handled.state, .obeyed handled.answer [], [], handled.log⟩
  | .drain count inbox now =>
      let drained := scheduler.drain now count inbox logger
      ⟨scheduler, request, drained.state.1, .obeyed drained.answer drained.state.2, [],
        drained.log⟩
  | .instructions now =>
      let batch := scheduler.runInstructions limit now logger
      ⟨scheduler, request, batch.scheduler, .ran batch.ending batch.cycles, [], batch.log⟩
  | .timers now =>
      let batch := scheduler.runTimers limit now
      ⟨scheduler, request, batch.scheduler, .ticked batch.caughtUp batch.ticks, [], []⟩
  | .publish =>
      let (published, messages) := scheduler.publish
      ⟨scheduler, request, published, .done, messages, []⟩

/-- Serves requests one after the other, whatever they are answered. -/
def serveAll (limit : Nat) (scheduler : Scheduler Time) (requests : List (Request Time))
    (logger : Logger := .complete) : List (Served Time) :=
  match requests with
  | [] => []
  | request :: requests =>
      let served := scheduler.serve limit request logger
      served :: serveAll limit served.scheduler requests logger

variable (limit : Nat) (scheduler : Scheduler Time)

/-! ## Traces -/

/-- A request leaves one trace for each word that it executes. -/
theorem tracesOf_serve (request : Request Time) :
    tracesOf (scheduler.serve limit request).log = request.trace limit scheduler := by
  cases request with
  | machine operation => exact scheduler.machine.tracesOf_apply operation
  | loadContent path content => exact scheduler.machine.tracesOf_loadContent path content
  | command command now => exact scheduler.tracesOf_handle command now
  | key index pressed => exact scheduler.tracesOf_handleKey index pressed
  | drain count inbox now => exact scheduler.tracesOf_drain now count inbox
  | instructions now =>
      have traced := scheduler.tracesOf_performAll (scheduler.instructionDeeds limit now)
      rwa [performAll_instructionDeeds] at traced
  | timers now | publish => rfl

/-- Every request leaves the trace of the words that it executes, and no other. -/
theorem tracesOf_serveAll (requests : List (Request Time)) :
    ∀ served ∈ scheduler.serveAll limit requests,
      tracesOf served.log = served.request.trace limit served.met := by
  induction requests generalizing scheduler with
  | nil => exact fun _ member => absurd member List.not_mem_nil
  | cons request requests inductionHypothesis =>
      refine List.forall_mem_cons.mpr ⟨?_, inductionHypothesis _⟩
      have served := scheduler.tracesOf_serve limit request
      cases request <;> exact served

/-! ## Levels -/

section Levels

variable (logger : Logger)

theorem serve_seen (request : Request Time) :
    scheduler.serve limit request logger =
      (scheduler.serve limit request).seenFrom logger.least := by
  cases request with
  | machine operation =>
      rw [serve, Machine.apply_seen]
      rfl
  | loadContent path content =>
      rw [serve, Machine.loadContent_seen]
      rfl
  | command command now =>
      rw [serve, handle_seen]
      rfl
  | key index pressed =>
      rw [serve, handleKey_seen]
      rfl
  | drain count inbox now =>
      rw [serve, drain_seen]
      rfl
  | instructions now =>
      rw [serve, runInstructions_seen]
      rfl
  | timers now | publish => rfl

theorem serveAll_seen (requests : List (Request Time)) :
    scheduler.serveAll limit requests logger =
      (scheduler.serveAll limit requests).map (Served.seenFrom logger.least) := by
  induction requests generalizing scheduler with
  | nil => rfl
  | cons request requests inductionHypothesis =>
      rw [serveAll, serve_seen]
      exact congrArg (List.cons _) (inductionHypothesis _)

end Levels

end Scheduler

/-- Whoever keeps the lowest lines of the log is given the same answers, errors, states and messages
as who does not, and the same log but for these lines.  Among them stand the traces, one for each
word that was executed, in order, with the address at which it stood and its mnemonic. -/
theorem debug_log_transparent_and_faithful (limit : Nat) (scheduler : Scheduler Time) :
    let quiet : Logger := ⟨.info⟩
    let loud : Logger := ⟨.debug⟩
    (∀ requests,
      let served := scheduler.serveAll limit requests loud
      scheduler.serveAll limit requests quiet = served.map Served.withoutDebug ∧
        ∀ one ∈ served, tracesOf one.log = one.request.trace limit one.met) ∧
      (∀ (began : Time) (inbox : List Command) (ticks : List (Tick Time)),
        let (begun, log) := scheduler.begin began loud
        let run := begun.turns limit inbox ticks loud
        scheduler.begin began quiet = (begun, withoutDebug log) ∧
          begun.turns limit inbox ticks quiet = run.map Turn.withoutDebug ∧
          tracesOf (log ++ run.flatMap Turn.log) =
            (begun.moments (begun.history limit inbox ticks).flatten).flatMap Moment.trace) ∧
      ∀ pc word, (LogEvent.executing pc word).level = .debug ∧
        (LogEvent.executing pc word).text =
          Text.hexNumeral .lower 4 pc ++ " | OP 0x" ++ Text.hexNumeral .lower 4 word.toNat ++
            " - " ++ word.mnemonic := by
  intro quiet loud
  refine ⟨fun requests => ⟨?_, scheduler.tracesOf_serveAll limit requests⟩,
    fun began inbox ticks => ⟨?_, ?_, ?_⟩, fun pc word => ⟨rfl, rfl⟩⟩
  · rw [Scheduler.serveAll_seen, Served.seenFrom_info]
    rfl
  · rw [Scheduler.begin_seen, visibleAt_info]
    rfl
  · rw [Scheduler.turns_seen, Turn.seenFrom_info]
    rfl
  · exact Scheduler.tracesOf_turns _ limit inbox ticks

end ChipEight
