import ChipEight.Proofs.Scheduler.Chronicle

/-!
# Turns and runs

A turn and a run as relations: `Turned` lists the ways in which a turn can go, and `Ran` puts turns
together.  What every run keeps is shown by induction on `Ran`.
-/

namespace ChipEight

/-- The messages of a run in the order in which they were sent. -/
def messagesOf {Time : Type} (run : List (Turn Time)) : List Message :=
  run.flatMap Turn.messages

/-- How a run has ended, if its last turn ends it. -/
def endingOf {Time : Type} (run : List (Turn Time)) : Option Ending :=
  run.getLast?.bind Turn.ending

theorem endingOf_cons {Time : Type} {turn : Turn Time} (goesOn : turn.ending = none)
    (rest : List (Turn Time)) : endingOf (turn :: rest) = endingOf rest := by
  cases rest with
  | nil => exact goesOn
  | cons next rest => rfl

namespace Scheduler

variable {Time : Type} [Clock Time]

/-- The ways in which a turn can go. -/
inductive Turned (scheduler : Scheduler Time) (inbox : List Command) (now : Time) :
    Turn Time → Prop
  | commandFailed {drained : Outcome (Scheduler Time × List Command) CommandError Unit}
      {error : CommandError} :
      Drained now scheduler inbox drained → drained.answer = .error error →
      Turned scheduler inbox now
        (drained.state.1.close drained.state.2 [] drained.log (.commandFailed error))
  | quit {drained : Outcome (Scheduler Time × List Command) CommandError Unit} :
      Drained now scheduler inbox drained → drained.state.1.quit = true →
      Turned scheduler inbox now (drained.state.1.close drained.state.2 [] drained.log .quit)
  | goesOn {drained : Outcome (Scheduler Time × List Command) CommandError Unit}
      {caughtUp : Scheduler Time} {log : List LogEvent} :
      Drained now scheduler inbox drained → drained.state.1.quit = false →
      CaughtUp drained.state.1 now (caughtUp, none, log) →
      Turned scheduler inbox now
        ⟨caughtUp.publish.1, drained.state.2, caughtUp.publish.2, drained.log ++ log, none⟩
  | programEnded {drained : Outcome (Scheduler Time × List Command) CommandError Unit}
      {caughtUp : Scheduler Time} {log : List LogEvent} :
      Drained now scheduler inbox drained → drained.state.1.quit = false →
      CaughtUp drained.state.1 now (caughtUp, some .programEnded, log) →
      Turned scheduler inbox now
        (caughtUp.publish.1.close drained.state.2 caughtUp.publish.2 (drained.log ++ log)
          .programEnded)
  | exhausted {drained : Outcome (Scheduler Time × List Command) CommandError Unit}
      {caughtUp : Scheduler Time} {log : List LogEvent} :
      Drained now scheduler inbox drained → drained.state.1.quit = false →
      CaughtUp drained.state.1 now (caughtUp, some .exhausted, log) →
      Turned scheduler inbox now
        ⟨caughtUp, drained.state.2, [], drained.log ++ log, some .exhausted⟩
  | interrupted {drained : Outcome (Scheduler Time × List Command) CommandError Unit}
      {caughtUp : Scheduler Time} {interruption : Interruption} {log : List LogEvent} :
      Drained now scheduler inbox drained → drained.state.1.quit = false →
      CaughtUp drained.state.1 now (caughtUp, some interruption.ending, log) →
      Turned scheduler inbox now
        (caughtUp.close drained.state.2 [] (drained.log ++ log) interruption.ending)

/-- A turn goes in one of the ways that `Turned` lists. -/
theorem turn_turned (limit : Nat) (scheduler : Scheduler Time) (inbox : List Command)
    (now : Time) : Turned scheduler inbox now (scheduler.turn limit inbox now) := by
  have drained := drain_drained now inbox.length scheduler inbox
  simp only [turn]
  generalize scheduler.drain now inbox.length inbox = result at drained ⊢
  cases answer : result.answer with
  | error error => exact .commandFailed drained answer
  | ok _ =>
      cases quit : result.state.1.quit with
      | true => exact .quit drained quit
      | false =>
          have caughtUp := result.state.1.catchUp_caughtUp limit now
          simp only [Bool.false_eq_true, if_false]
          generalize result.state.1.catchUp limit now = reached at caughtUp ⊢
          obtain ⟨after, ending, log⟩ := reached
          rcases caughtUp.ending_cases with rfl | rfl | rfl | ⟨interruption, rfl⟩
          · exact .goesOn drained quit caughtUp
          · exact .programEnded drained quit caughtUp
          · exact .exhausted drained quit caughtUp
          · have interrupted := Turned.interrupted drained quit caughtUp
            cases interruption with
            | faulted fault => exact interrupted
            | strayed error => exact interrupted

section Turned

variable {scheduler : Scheduler Time} {inbox : List Command} {now : Time} {turn : Turn Time}

theorem CaughtUp.keeps {result : Scheduler Time × Option Ending × List LogEvent}
    (caughtUp : CaughtUp scheduler now result) :
    result.1.program = scheduler.program ∧ result.1.digitLimit = scheduler.digitLimit ∧
      result.1.sounding = scheduler.sounding := by
  obtain ⟨_, _, _, frame⟩ := caughtUp.frame
  rw [frame]
  exact ⟨rfl, rfl, rfl⟩

/-- The program and the limit on written numbers are those that a run begins with. -/
theorem Turned.keeps (turned : Turned scheduler inbox now turn) :
    turn.scheduler.program = scheduler.program ∧
      turn.scheduler.digitLimit = scheduler.digitLimit := by
  have worked : ∀ {drained : Outcome (Scheduler Time × List Command) CommandError Unit}
      {result : Scheduler Time × Option Ending × List LogEvent},
      Drained now scheduler inbox drained → CaughtUp drained.state.1 now result →
        result.1.program = scheduler.program ∧ result.1.digitLimit = scheduler.digitLimit := by
    intro drained result obeyed caughtUp
    exact ⟨caughtUp.keeps.1.trans obeyed.keeps.1, caughtUp.keeps.2.1.trans obeyed.keeps.2.1⟩
  cases turned with
  | commandFailed drained _ => exact ⟨drained.keeps.1, drained.keeps.2.1⟩
  | quit drained _ => exact ⟨drained.keeps.1, drained.keeps.2.1⟩
  | goesOn drained _ caughtUp => exact worked drained caughtUp
  | programEnded drained _ caughtUp => exact worked drained caughtUp
  | exhausted drained _ caughtUp => exact worked drained caughtUp
  | interrupted drained _ caughtUp => exact worked drained caughtUp

/-- What a turn leaves of its commands is the end of the queue. -/
theorem Turned.left_suffix (turned : Turned scheduler inbox now turn) : turn.inbox <:+ inbox := by
  cases turned with
  | commandFailed drained _ => exact drained.left_suffix
  | quit drained _ => exact drained.left_suffix
  | goesOn drained _ _ => exact drained.left_suffix
  | programEnded drained _ _ => exact drained.left_suffix
  | exhausted drained _ _ => exact drained.left_suffix
  | interrupted drained _ _ => exact drained.left_suffix

/-- What a turn does before it tells the window: it obeys commands and runs its batches. -/
theorem chronicle_worked {relation : Machine → List LogEvent → Machine → Prop}
    (chronicle : Chronicle relation)
    {drained : Outcome (Scheduler Time × List Command) CommandError Unit}
    {result : Scheduler Time × Option Ending × List LogEvent}
    (obeyed : Drained now scheduler inbox drained)
    (caughtUp : CaughtUp drained.state.1 now result) :
    relation scheduler.machine (drained.log ++ result.2.2) result.1.machine :=
  chronicle.join (chronicle.drained obeyed) (chronicle.caughtUp caughtUp)

/-- A chronicle that also holds of a display being shown holds of whole turns. -/
theorem Turned.chronicle {relation : Machine → List LogEvent → Machine → Prop}
    (chronicle : Chronicle relation)
    (shown : ∀ machine : Machine,
      relation machine [] { machine with display := { machine.display with dirty := false } })
    (turned : Turned scheduler inbox now turn) :
    relation scheduler.machine turn.log turn.scheduler.machine := by
  have closed : ∀ {first : Machine} {reached : Scheduler Time} {left : List Command}
      {messages : List Message} {log : List LogEvent} {ending : Ending},
      relation first log reached.machine →
        relation first (reached.close left messages log ending).log reached.machine := by
    intro first reached left messages log ending worked
    rw [close_complete]
    exact chronicle.join (chronicle.join worked (chronicle.idle _ _)) (chronicle.idle _ _)
  have published : ∀ {first : Machine} {log : List LogEvent} {caughtUp : Scheduler Time},
      relation first log caughtUp.machine → relation first log caughtUp.publish.1.machine := by
    intro first log caughtUp worked
    have told := chronicle.join worked (shown caughtUp.machine)
    rw [List.append_nil] at told
    exact told
  cases turned with
  | commandFailed drained _ => exact closed (chronicle.drained drained)
  | quit drained _ => exact closed (chronicle.drained drained)
  | goesOn drained _ caughtUp => exact published (chronicle_worked chronicle drained caughtUp)
  | programEnded drained _ caughtUp =>
      exact closed (published (chronicle_worked chronicle drained caughtUp))
  | exhausted drained _ caughtUp => exact chronicle_worked chronicle drained caughtUp
  | interrupted drained _ caughtUp => exact closed (chronicle_worked chronicle drained caughtUp)

end Turned

/-- How a run goes on from a scheduler and its commands, as far as the clock is read. -/
inductive Ran : Scheduler Time → List Command → List (Turn Time) → Prop
  | unread {scheduler : Scheduler Time} {inbox : List Command} : Ran scheduler inbox []
  | last {scheduler : Scheduler Time} {inbox arrivals : List Command} {now : Time}
      {turn : Turn Time} {ending : Ending} :
      Turned scheduler (inbox ++ arrivals) now turn → turn.ending = some ending →
      Ran scheduler inbox [turn]
  | further {scheduler : Scheduler Time} {inbox arrivals : List Command} {now : Time}
      {turn : Turn Time} {rest : List (Turn Time)} :
      Turned scheduler (inbox ++ arrivals) now turn → turn.ending = none →
      Ran turn.scheduler turn.inbox rest → Ran scheduler inbox (turn :: rest)

/-- The turns of a run are a way in which it can go on. -/
theorem turns_ran (limit : Nat) (scheduler : Scheduler Time) (inbox : List Command)
    (ticks : List (Tick Time)) : Ran scheduler inbox (scheduler.turns limit inbox ticks) := by
  induction ticks generalizing scheduler inbox with
  | nil => exact .unread
  | cons tick ticks inductionHypothesis =>
      have turned := scheduler.turn_turned limit (inbox ++ tick.arrivals) tick.now
      simp only [turns]
      generalize scheduler.turn limit (inbox ++ tick.arrivals) tick.now = turn at turned ⊢
      cases ending : turn.ending with
      | some reason => exact .last turned ending
      | none => exact .further turned ending (inductionHypothesis turn.scheduler turn.inbox)

/-- What holds of every turn from a scheduler that keeps an invariant holds of every turn of a
run. -/
theorem Ran.forall_mem (invariant : Scheduler Time → Prop) {holds : Turn Time → Prop}
    (step : ∀ {scheduler : Scheduler Time} {inbox : List Command} {now : Time} {turn : Turn Time},
      Turned scheduler inbox now turn → invariant scheduler →
        holds turn ∧ (turn.ending = none → invariant turn.scheduler))
    {scheduler : Scheduler Time} {inbox : List Command} {run : List (Turn Time)}
    (ran : Ran scheduler inbox run) (valid : invariant scheduler) : ∀ turn ∈ run, holds turn := by
  induction ran with
  | unread => exact fun _ member => absurd member List.not_mem_nil
  | last turned _ => exact List.forall_mem_singleton.mpr (step turned valid).1
  | further turned goesOn _ inductionHypothesis =>
      obtain ⟨first, kept⟩ := step turned valid
      exact List.forall_mem_cons.mpr ⟨first, inductionHypothesis (kept goesOn)⟩

end Scheduler

end ChipEight
