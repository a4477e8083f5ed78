import ChipEight.Proofs.Scheduler.Turns
import Mathlib.Data.List.Infix

/-!
# Deeds

A turn is made of deeds: commands are obeyed, clocks are set, instructions run, timers tick and the
window is told.  `turnDeeds` lists the deeds of a turn and `history` those of a run.
`turn_deeds` says that whoever performs the deeds of a turn one after the other reaches the
scheduler, the messages and the reports of the turn, so that what holds before and after every deed
holds throughout a run.
-/

namespace ChipEight

inductive Deed (Time : Type) where
  | obey (command : Command) (now : Time)
  /-- The next instruction is put off, or what is late of the instructions is dropped. -/
  | dueCycle (time : Time)
  | cycle (period : Time)
  /-- What is late of the ticks is dropped. -/
  | dueTick (time : Time)
  | tick
  | publish
  deriving DecidableEq

/-- A scheduler after some deeds, the messages that they sent and what they reported. -/
structure Done (Time : Type) where
  scheduler : Scheduler Time
  messages : List Message
  log : List LogEvent

def Deed.command? {Time : Type} : Deed Time → Option Command
  | .obey command _ => some command
  | _ => none

def commandsOf {Time : Type} (deeds : List (Deed Time)) : List Command :=
  deeds.filterMap Deed.command?

def obeying {Time : Type} (commands : List Command) (now : Time) : List (Deed Time) :=
  commands.map fun command => .obey command now

theorem commandsOf_append {Time : Type} (deeds later : List (Deed Time)) :
    commandsOf (deeds ++ later) = commandsOf deeds ++ commandsOf later :=
  List.filterMap_append

def Batch.deeds {Time : Type} [Clock Time] (batch : Batch Time) (period now : Time) :
    List (Deed Time) :=
  List.replicate batch.cycles (.cycle period) ++
    if batch.ending = .awaitingKey then [.dueCycle (now + period)] else []

/-- What a run sends last in its last turn. -/
def farewell : Option Ending → List Message
  | none => []
  | some .exhausted => []
  | some _ => [.finished]

/-- What a run reports last in its last turn. -/
def lastReport : Option Ending → List LogEvent
  | none => []
  | some .exhausted => []
  | some ending => ending.report ++ [.schedulerFinished]

namespace Scheduler

variable {Time : Type} [Clock Time]

def perform (scheduler : Scheduler Time) : Deed Time → Done Time
  | .obey command now =>
      let handled := scheduler.handle command now
      ⟨handled.state, [], handled.log⟩
  | .dueCycle time => ⟨{ scheduler with nextCycle := time }, [], []⟩
  | .cycle period =>
      let cycled := scheduler.cycle period
      ⟨cycled.state, [], cycled.log⟩
  | .dueTick time => ⟨{ scheduler with nextTimer := time }, [], []⟩
  | .tick => ⟨scheduler.tick, [], []⟩
  | .publish => ⟨scheduler.publish.1, scheduler.publish.2, []⟩

def performAll (scheduler : Scheduler Time) : List (Deed Time) → Done Time
  | [] => ⟨scheduler, [], []⟩
  | deed :: deeds =>
      let done := scheduler.perform deed
      let rest := done.scheduler.performAll deeds
      ⟨rest.scheduler, done.messages ++ rest.messages, done.log ++ rest.log⟩

theorem performAll_append {scheduler middle last : Scheduler Time} {deeds later : List (Deed Time)}
    {messages next : List Message} {log rest : List LogEvent}
    (first : scheduler.performAll deeds = ⟨middle, messages, log⟩)
    (second : middle.performAll later = ⟨last, next, rest⟩) :
    scheduler.performAll (deeds ++ later) = ⟨last, messages ++ next, log ++ rest⟩ := by
  induction deeds generalizing scheduler messages log with
  | nil =>
      cases first
      exact second
  | cons deed deeds inductionHypothesis =>
      cases first
      simp only [List.cons_append, performAll, List.append_assoc]
      rw [inductionHypothesis rfl]

theorem scheduler_performAll_append (scheduler : Scheduler Time) (deeds later : List (Deed Time)) :
    (scheduler.performAll (deeds ++ later)).scheduler =
      ((scheduler.performAll deeds).scheduler.performAll later).scheduler := by
  rw [performAll_append rfl rfl]

theorem performAll_singleton (scheduler : Scheduler Time) (deed : Deed Time) :
    scheduler.performAll [deed] = scheduler.perform deed := by
  simp [performAll]

/-! ## Commands -/

/-- The commands of a queue that a turn obeys. -/
def obeyed (scheduler : Scheduler Time) (inbox : List Command) (now : Time) : List Command :=
  inbox.take (inbox.length - (scheduler.drain now inbox.length inbox).state.2.length)

/-- The commands that are taken are a first part of the inbox, and each is one deed. -/
theorem Drained.deeds {now : Time} {scheduler : Scheduler Time} {inbox : List Command}
    {drained : Outcome (Scheduler Time × List Command) CommandError Unit}
    (run : Drained now scheduler inbox drained) :
    ∃ commands, inbox = commands ++ drained.state.2 ∧
      scheduler.performAll (obeying commands now) = ⟨drained.state.1, [], drained.log⟩ := by
  induction run with
  | left => exact ⟨[], rfl, rfl⟩
  | @failed _ command _ _ _ => exact ⟨[command], rfl, performAll_singleton _ _⟩
  | @quit _ command _ _ _ => exact ⟨[command], rfl, performAll_singleton _ _⟩
  | @further _ command _ _ _ _ _ inductionHypothesis =>
      obtain ⟨commands, split, performed⟩ := inductionHypothesis
      refine ⟨command :: commands, congrArg (List.cons command) split, ?_⟩
      simp only [obeying, List.map_cons, performAll, perform] at performed ⊢
      rw [performed]
      rfl

theorem drain_deeds (scheduler : Scheduler Time) (inbox : List Command) (now : Time) :
    let drained := scheduler.drain now inbox.length inbox
    inbox = scheduler.obeyed inbox now ++ drained.state.2 ∧
      scheduler.performAll (obeying (scheduler.obeyed inbox now) now) =
        ⟨drained.state.1, [], drained.log⟩ := by
  intro drained
  obtain ⟨commands, split, performed⟩ := (drain_drained now inbox.length scheduler inbox).deeds
  have obeyed : scheduler.obeyed inbox now = commands := by
    have length := congrArg List.length split
    rw [List.length_append] at length
    rw [Scheduler.obeyed, Nat.sub_eq_of_eq_add length]
    exact (List.prefix_iff_eq_take.mp ⟨_, split.symm⟩).symm
  rw [obeyed]
  exact ⟨split, performed⟩

/-! ## Batches -/

/-- Each step of a batch is a cycle, and a wait that ends the batch sets the next due time. -/
theorem Batched.deeds {period now : Time} {scheduler : Scheduler Time} {batch : Batch Time}
    (batched : Batched period now scheduler batch) :
    scheduler.performAll (batch.deeds period now) = ⟨batch.scheduler, [], batch.log⟩ := by
  induction batched with
  | caughtUp _ => rfl
  | exhausted _ => rfl
  | awaitingKey _ _ => rfl
  | interrupted _ _ _ => exact performAll_singleton _ _
  | programEnded _ _ _ => exact performAll_singleton _ _
  | @further scheduler rest _ _ _ _ inductionHypothesis =>
      simp only [Batch.deeds, Nat.add_comm 1, List.replicate_succ, List.cons_append, performAll]
      rw [Batch.deeds] at inductionHypothesis
      simp only [perform, inductionHypothesis]
      rfl

theorem Ticked.deeds {now : Time} {scheduler : Scheduler Time} {batch : TimerBatch Time}
    (ticked : Ticked now scheduler batch) :
    scheduler.performAll (List.replicate batch.ticks .tick) = ⟨batch.scheduler, [], []⟩ := by
  induction ticked with
  | caughtUp _ => rfl
  | exhausted _ => rfl
  | further _ _ inductionHypothesis =>
      simp only [Nat.add_comm 1, List.replicate_succ, performAll, perform, inductionHypothesis]
      rfl

def lateCycles (scheduler : Scheduler Time) (now : Time) : List (Deed Time) :=
  if scheduler.nextCycle < now - Clock.greatestLag then [.dueCycle now] else []

def lateTicks (scheduler : Scheduler Time) (now : Time) : List (Deed Time) :=
  if scheduler.nextTimer < now - Clock.greatestLag then [.dueTick now] else []

theorem performAll_lateCycles (scheduler : Scheduler Time) (now : Time) :
    scheduler.performAll (scheduler.lateCycles now) = ⟨scheduler.dropLateCycles now, [], []⟩ := by
  rw [lateCycles, dropLateCycles]
  split <;> rfl

theorem performAll_lateTicks (scheduler : Scheduler Time) (now : Time) :
    scheduler.performAll (scheduler.lateTicks now) = ⟨scheduler.dropLateTicks now, [], []⟩ := by
  rw [lateTicks, dropLateTicks]
  split <;> rfl

def instructionDeeds (limit : Nat) (scheduler : Scheduler Time) (now : Time) : List (Deed Time) :=
  scheduler.lateCycles now ++
    (scheduler.runInstructions limit now).deeds scheduler.period now

def timerDeeds (limit : Nat) (scheduler : Scheduler Time) (now : Time) : List (Deed Time) :=
  scheduler.lateTicks now ++ List.replicate (scheduler.runTimers limit now).ticks .tick

theorem mem_instructionDeeds {limit : Nat} {scheduler : Scheduler Time} {now : Time}
    {deed : Deed Time} (member : deed ∈ scheduler.instructionDeeds limit now) :
    (∃ time, deed = .dueCycle time) ∨ ∃ period, deed = .cycle period := by
  simp only [instructionDeeds, lateCycles, Batch.deeds, List.mem_append] at member
  rcases member with late | ran | waits
  · split at late
    · exact Or.inl ⟨now, List.mem_singleton.mp late⟩
    · cases late
  · exact Or.inr ⟨_, List.eq_of_mem_replicate ran⟩
  · split at waits
    · exact Or.inl ⟨_, List.mem_singleton.mp waits⟩
    · cases waits

theorem performAll_instructionDeeds (limit : Nat) (scheduler : Scheduler Time) (now : Time) :
    scheduler.performAll (scheduler.instructionDeeds limit now) =
      let batch := scheduler.runInstructions limit now
      ⟨batch.scheduler, [], batch.log⟩ := by
  exact performAll_append (scheduler.performAll_lateCycles now)
    (scheduler.runInstructions_batched limit now).deeds

theorem performAll_timerDeeds (limit : Nat) (scheduler : Scheduler Time) (now : Time) :
    scheduler.performAll (scheduler.timerDeeds limit now) =
      ⟨(scheduler.runTimers limit now).scheduler, [], []⟩ := by
  exact performAll_append (scheduler.performAll_lateTicks now)
    (scheduler.runTimers_ticked limit now).deeds

def catchUpDeeds (limit : Nat) (scheduler : Scheduler Time) (now : Time) : List (Deed Time) :=
  if scheduler.running then
    let batch := scheduler.runInstructions limit now
    scheduler.instructionDeeds limit now ++
      match batch.ending with
      | .interrupted _ => []
      | .exhausted => []
      | _ => batch.scheduler.timerDeeds limit now
  else
    []

/-- The deeds of both batches, one after the other, lead to where the scheduler catches up to. -/
theorem performAll_catchUpDeeds (limit : Nat) (scheduler : Scheduler Time) (now : Time) :
    scheduler.performAll (scheduler.catchUpDeeds limit now) =
      ⟨(scheduler.catchUp limit now).1, [], (scheduler.catchUp limit now).2.2⟩ := by
  cases running : scheduler.running with
  | false => simp [catchUp, catchUpDeeds, running, performAll]
  | true =>
      have instructions := scheduler.performAll_instructionDeeds limit now
      have timers := (scheduler.runInstructions limit now).scheduler.performAll_timerDeeds limit now
      have both := performAll_append instructions timers
      rw [List.append_nil, List.append_nil] at both
      simp only [catchUp, catchUpDeeds, running, if_true]
      generalize scheduler.runInstructions limit now = batch at instructions both ⊢
      cases batch.ending with
      | interrupted interruption => simpa using instructions
      | exhausted => simpa using instructions
      | caughtUp | awaitingKey | programEnded =>
          dsimp only
          rw [both]
          split <;> rfl

/-! ## Turns -/

/-- The deeds that a turn does once it has obeyed its commands. -/
def workDeeds (limit : Nat) (scheduler : Scheduler Time) (now : Time) : List (Deed Time) :=
  scheduler.catchUpDeeds limit now ++
    match (scheduler.catchUp limit now).2.1 with
    | none => [.publish]
    | some .programEnded => [.publish]
    | some _ => []

def turnDeeds (limit : Nat) (scheduler : Scheduler Time) (inbox : List Command) (now : Time) :
    List (Deed Time) :=
  let drained := scheduler.drain now inbox.length inbox
  obeying (scheduler.obeyed inbox now) now ++
    match drained.answer with
    | .error _ => []
    | .ok () => if drained.state.1.quit then [] else drained.state.1.workDeeds limit now

/-- Whoever performs the deeds of a turn does what the turn does. -/
theorem turn_deeds (limit : Nat) (scheduler : Scheduler Time) (inbox : List Command)
    (now : Time) :
    let turn := scheduler.turn limit inbox now
    let done := scheduler.performAll (scheduler.turnDeeds limit inbox now)
    turn.scheduler = done.scheduler ∧ turn.messages = done.messages ++ farewell turn.ending ∧
      turn.log = done.log ++ lastReport turn.ending ∧
      inbox = scheduler.obeyed inbox now ++ turn.inbox := by
  intro turn done
  obtain ⟨split, obeyed⟩ := scheduler.drain_deeds inbox now
  simp only [turn, done, Scheduler.turn, turnDeeds]
  generalize scheduler.drain now inbox.length inbox = drained at split obeyed ⊢
  cases drained.answer with
  | error error =>
      simp only [List.append_nil]
      rw [obeyed]
      exact ⟨rfl, rfl, List.append_assoc _ _ _, split⟩
  | ok _ =>
      cases quit : drained.state.1.quit with
      | true =>
          simp only [if_true, List.append_nil]
          rw [obeyed]
          exact ⟨rfl, rfl, List.append_assoc _ _ _, split⟩
      | false =>
          have worked := performAll_append obeyed
            (drained.state.1.performAll_catchUpDeeds limit now)
          simp only [Bool.false_eq_true, if_false, workDeeds]
          rw [← List.append_assoc]
          generalize drained.state.1.catchUp limit now = reached at worked ⊢
          obtain ⟨caughtUp, ending, log⟩ := reached
          -- The window is told only of a turn that goes on or finds the program at its end.
          have published := performAll_append worked (caughtUp.performAll_singleton .publish)
          have silent := performAll_append worked (show caughtUp.performAll [] = _ from rfl)
          cases ending with
          | none =>
              rw [published]
              refine ⟨rfl, ?_, ?_, split⟩ <;> simp [farewell, lastReport]
          | some ending =>
              cases ending with
              | programEnded =>
                  rw [published]
                  refine ⟨rfl, ?_, ?_, split⟩ <;> simp [close, farewell, lastReport]
              | exhausted =>
                  rw [silent]
                  refine ⟨rfl, ?_, ?_, split⟩ <;> simp [farewell, lastReport]
              | quit | faulted fault | strayed error | commandFailed error =>
                  rw [silent]
                  refine ⟨rfl, ?_, ?_, split⟩ <;> simp [close, farewell, lastReport]

/-! ## Runs -/

/-- The deeds of a run, turn by turn. -/
def history (limit : Nat) (scheduler : Scheduler Time) (inbox : List Command) :
    List (Tick Time) → List (List (Deed Time))
  | [] => []
  | tick :: ticks =>
      let turn := scheduler.turn limit (inbox ++ tick.arrivals) tick.now
      scheduler.turnDeeds limit (inbox ++ tick.arrivals) tick.now ::
        match turn.ending with
        | some _ => []
        | none => history limit turn.scheduler turn.inbox ticks

/-- A run goes on behind a turn only if the turn has no ending. -/
theorem turns_cons (limit : Nat) (scheduler : Scheduler Time) (inbox : List Command)
    (tick : Tick Time) (ticks : List (Tick Time)) :
    scheduler.turns limit inbox (tick :: ticks) =
      let turn := scheduler.turn limit (inbox ++ tick.arrivals) tick.now
      turn ::
        match turn.ending with
        | some _ => []
        | none => turns limit turn.scheduler turn.inbox ticks := by
  simp only [turns]
  split <;> simp [*]

/-- A run comes through a scheduler: some of its deeds, from the first one on, lead there. -/
def ComesThrough (limit : Nat) (scheduler : Scheduler Time) (inbox : List Command)
    (ticks : List (Tick Time)) (reached : Scheduler Time) : Prop :=
  ∃ deeds, deeds <+: (scheduler.history limit inbox ticks).flatten ∧
    (scheduler.performAll deeds).scheduler = reached

section History

variable {limit : Nat} {scheduler : Scheduler Time} {inbox : List Command}
  {ticks : List (Tick Time)}

theorem length_history :
    (scheduler.history limit inbox ticks).length = (scheduler.turns limit inbox ticks).length := by
  induction ticks generalizing scheduler inbox with
  | nil => rfl
  | cons tick ticks inductionHypothesis =>
      simp only [history, turns_cons, List.length_cons]
      split
      · rfl
      · rw [inductionHypothesis]

/-- A run none of whose turns ends it takes a turn at every tick. -/
theorem length_turns
    (goesOn : ∀ turn ∈ scheduler.turns limit inbox ticks, turn.ending = none) :
    (scheduler.turns limit inbox ticks).length = ticks.length := by
  induction ticks generalizing scheduler inbox with
  | nil => rfl
  | cons tick ticks inductionHypothesis =>
      rw [turns_cons] at goesOn ⊢
      obtain ⟨first, later⟩ := List.forall_mem_cons.mp goesOn
      simp only [first, List.length_cons] at later ⊢
      rw [inductionHypothesis later]

/-- A turn that another one follows goes on, and the other is met in the run from there. -/
theorem met_later {tick : Tick Time} {index : Nat} {turn : Turn Time}
    (met : (scheduler.turns limit inbox (tick :: ticks))[index + 1]? = some turn) :
    let first := scheduler.turn limit (inbox ++ tick.arrivals) tick.now
    first.ending = none ∧
      (first.scheduler.turns limit first.inbox ticks)[index]? = some turn ∧
      scheduler.history limit inbox (tick :: ticks) =
        scheduler.turnDeeds limit (inbox ++ tick.arrivals) tick.now ::
          first.scheduler.history limit first.inbox ticks := by
  intro first
  rw [turns_cons, List.getElem?_cons_succ] at met
  cases ending : first.ending with
  | some reason => simp [first, ending] at met
  | none =>
      simp only [first, ending] at met
      refine ⟨rfl, met, ?_⟩
      simp only [history, first, ending]

/-- The deeds of the first turns of a run lead to the scheduler of the last of them, and send what
these turns send, but for the announcement of the end. -/
theorem performAll_history {index : Nat} {turn : Turn Time}
    (met : (scheduler.turns limit inbox ticks)[index]? = some turn) :
    let done :=
      scheduler.performAll ((scheduler.history limit inbox ticks).take (index + 1)).flatten
    done.scheduler = turn.scheduler ∧
      messagesOf ((scheduler.turns limit inbox ticks).take (index + 1)) =
        done.messages ++ farewell turn.ending := by
  induction ticks generalizing scheduler inbox index with
  | nil => cases met
  | cons tick ticks inductionHypothesis =>
      obtain ⟨reached, messages, _⟩ := scheduler.turn_deeds limit (inbox ++ tick.arrivals) tick.now
      cases index with
      | zero =>
          rw [turns_cons] at met ⊢
          cases met
          simpa [messagesOf, history, performAll] using ⟨reached.symm, messages⟩
      | succ index =>
          obtain ⟨goesOn, metLater, split⟩ := met_later met
          obtain ⟨later, told⟩ := inductionHypothesis metLater
          rw [goesOn, farewell, List.append_nil] at messages
          simp only [split, turns_cons, goesOn, List.take_succ_cons, List.flatten_cons]
          rw [performAll_append rfl rfl, ← reached]
          refine ⟨later, ?_⟩
          rw [messagesOf, List.flatMap_cons, messages, List.append_assoc, ← told]
          rfl

/-- The deeds of a run send what the run sends, but for the announcement of its end. -/
theorem messagesOf_turns :
    messagesOf (scheduler.turns limit inbox ticks) =
      (scheduler.performAll (scheduler.history limit inbox ticks).flatten).messages ++
        farewell (endingOf (scheduler.turns limit inbox ticks)) := by
  induction ticks generalizing scheduler inbox with
  | nil => rfl
  | cons tick ticks inductionHypothesis =>
      obtain ⟨reached, messages, _⟩ := scheduler.turn_deeds limit (inbox ++ tick.arrivals) tick.now
      rw [turns_cons, history, List.flatten_cons, performAll_append rfl rfl, messagesOf,
        List.flatMap_cons, messages]
      cases ending : (scheduler.turn limit (inbox ++ tick.arrivals) tick.now).ending with
      | some reason => simp [endingOf, ending, performAll]
      | none =>
          have silent : farewell none = [] := rfl
          have later := @inductionHypothesis
            (scheduler.turn limit (inbox ++ tick.arrivals) tick.now).scheduler
            (scheduler.turn limit (inbox ++ tick.arrivals) tick.now).inbox
          rw [messagesOf] at later
          simp only [endingOf_cons ending, ending, later, ← reached, silent, List.append_nil,
            List.append_assoc]

/-- The state behind a turn is one that the run comes through. -/
theorem comesThrough_turn {turn : Turn Time} (met : turn ∈ scheduler.turns limit inbox ticks) :
    scheduler.ComesThrough limit inbox ticks turn.scheduler := by
  obtain ⟨index, _, found⟩ := List.mem_iff_getElem.mp met
  have first := List.take_prefix (index + 1) (scheduler.history limit inbox ticks)
  exact ⟨_, first.flatten, (performAll_history (List.getElem?_eq_some_iff.mpr ⟨_, found⟩)).1⟩

end History

end Scheduler

/-! ## Chronicles of deeds -/

namespace Chronicle

open Scheduler

variable {Time : Type} [Clock Time] {relation : Machine → List LogEvent → Machine → Prop}

theorem perform (chronicle : Chronicle relation)
    (shown : ∀ machine : Machine,
      relation machine [] { machine with display := { machine.display with dirty := false } })
    (scheduler : Scheduler Time) (deed : Deed Time) :
    relation scheduler.machine (scheduler.perform deed).log
      (scheduler.perform deed).scheduler.machine := by
  cases deed with
  | obey command now => exact chronicle.handle scheduler command now
  | dueCycle time => exact chronicle.idle _ _
  | cycle period => exact chronicle.cycle _
  | dueTick time => exact chronicle.idle _ _
  | tick => exact chronicle.tickTimers _
  | publish => exact shown _

theorem performAll (chronicle : Chronicle relation)
    (shown : ∀ machine : Machine,
      relation machine [] { machine with display := { machine.display with dirty := false } })
    (scheduler : Scheduler Time) (deeds : List (Deed Time)) :
    relation scheduler.machine (scheduler.performAll deeds).log
      (scheduler.performAll deeds).scheduler.machine := by
  induction deeds generalizing scheduler with
  | nil => exact chronicle.idle _ _
  | cons deed deeds inductionHypothesis =>
      exact chronicle.join (chronicle.perform shown scheduler deed) (inductionHypothesis _)

end Chronicle

end ChipEight
