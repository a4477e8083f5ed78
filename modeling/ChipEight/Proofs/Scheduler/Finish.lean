import ChipEight.Proofs.Machine.Execution
import ChipEight.Proofs.Scheduler.Turns

/-!
# How runs end

Every run that ends says so with its last message and not before.  A run of a machine that was just
switched on ends because it was asked to, because the program ends, or by a fault.  Otherwise it
ends by one of the commands that were sent to it: a reset, if the program of the scheduler does not
fit into memory, or a command that has to be reported and cannot be written.
-/

namespace ChipEight.Scheduler

variable {Time : Type} [Clock Time]

/-! ## The last message -/

omit [Clock Time] in
theorem finished_not_mem_publish (scheduler : Scheduler Time) :
    Message.finished ∉ scheduler.publish.2 := by
  simp only [publish, List.mem_append, not_or]
  constructor <;> split <;> simp

section LastMessage

variable {scheduler : Scheduler Time} {inbox : List Command} {now : Time} {turn : Turn Time}

theorem Turned.unfinished (turned : Turned scheduler inbox now turn) (goesOn : turn.ending = none) :
    Message.finished ∉ turn.messages := by
  cases turned with
  | goesOn _ _ _ => exact finished_not_mem_publish _
  | commandFailed _ _ => cases goesOn
  | quit _ _ => cases goesOn
  | programEnded _ _ _ => cases goesOn
  | exhausted _ _ _ => cases goesOn
  | interrupted _ _ _ => cases goesOn

theorem Turned.finished (turned : Turned scheduler inbox now turn) {ending : Ending}
    (ended : turn.ending = some ending) (real : ending ≠ .exhausted) :
    ∃ earlier, turn.messages = earlier ++ [.finished] ∧ .finished ∉ earlier := by
  cases turned with
  | goesOn _ _ _ => cases ended
  | commandFailed _ _ => exact ⟨[], rfl, List.not_mem_nil⟩
  | quit _ _ => exact ⟨[], rfl, List.not_mem_nil⟩
  | programEnded _ _ _ => exact ⟨_, rfl, finished_not_mem_publish _⟩
  | exhausted _ _ _ => exact absurd (Option.some.inj ended).symm real
  | interrupted _ _ _ => exact ⟨[], rfl, List.not_mem_nil⟩

theorem Ran.finished {run : List (Turn Time)} (ran : Ran scheduler inbox run) {ending : Ending}
    (ended : endingOf run = some ending) (real : ending ≠ .exhausted) :
    ∃ earlier, messagesOf run = earlier ++ [.finished] ∧ .finished ∉ earlier := by
  induction ran with
  | unread => cases ended
  | last turned _ =>
      obtain ⟨earlier, sent, absent⟩ := turned.finished ended real
      exact ⟨earlier, by simp [messagesOf, sent], absent⟩
  | @further _ _ _ _ turn _ turned goesOn _ inductionHypothesis =>
      rw [endingOf_cons goesOn] at ended
      obtain ⟨earlier, sent, absent⟩ := inductionHypothesis ended
      refine ⟨turn.messages ++ earlier, by simp [messagesOf, ← sent], ?_⟩
      rw [List.mem_append, not_or]
      exact ⟨turned.unfinished goesOn, absent⟩

end LastMessage

/-! ## The reason -/

theorem wellFormed_chronicle :
    Chronicle fun before _ after => before.WellFormed → after.WellFormed where
  idle _ _ valid := valid
  join first second valid := second (first valid)
  cycle _ valid := valid.cycle
  tickTimers _ valid := valid.tickTimers
  setKey _ key pressed valid := valid.setKey key pressed
  endWait _ index valid := valid.endWait index
  reload machine program _ := machine.reset_wellFormed.load program

theorem Batched.faulted {period now : Time} {scheduler : Scheduler Time} {batch : Batch Time}
    (batched : Batched period now scheduler batch) (valid : scheduler.machine.WellFormed)
    {interruption : Interruption} (stopped : batch.ending = .interrupted interruption) :
    ∃ fault, interruption = .faulted fault := by
  induction batched with
  | interrupted _ _ failed =>
      cases stopped
      rcases Machine.cycle_answer valid with ⟨ended, answer⟩ | ⟨fault, answer⟩
      · rw [failed] at answer
        cases answer
      · rw [failed] at answer
        exact ⟨fault, Except.error.inj answer⟩
  | further _ _ _ _ inductionHypothesis => exact inductionHypothesis valid.cycle stopped
  | caughtUp _ => cases stopped
  | exhausted _ => cases stopped
  | awaitingKey _ _ => cases stopped
  | programEnded _ _ _ => cases stopped

/-- A well-formed machine ends a batch only by the end of its program or by a fault. -/
theorem CaughtUp.reason {scheduler : Scheduler Time} {now : Time}
    {result : Scheduler Time × Option Ending × List LogEvent}
    (caughtUp : CaughtUp scheduler now result) (valid : scheduler.machine.WellFormed) :
    ∀ ending, result.2.1 = some ending →
      ending = .exhausted ∨ ending = .programEnded ∨ ∃ fault, ending = .faulted fault := by
  intro ending ended
  cases caughtUp with
  | paused _ => cases ended
  | interrupted _ batched stopped =>
      obtain ⟨_, dropped⟩ := scheduler.dropLateCycles_frame now
      obtain ⟨fault, rfl⟩ := batched.faulted (by rw [dropped]; exact valid) stopped
      exact Or.inr (Or.inr ⟨fault, (Option.some.inj ended).symm⟩)
  | cyclesExhausted _ _ _ => exact Or.inl (Option.some.inj ended).symm
  | ticksExhausted _ _ _ => exact Or.inl (Option.some.inj ended).symm
  | programEnded _ _ _ _ _ => exact Or.inr (Or.inl (Option.some.inj ended).symm)
  | goesOn _ _ _ _ _ => cases ended

/-- The ends that a run can come to, given the program of its scheduler, the limit on written
numbers and the commands that are sent. -/
def CanEnd (program : List Byte) (digitLimit : Option Nat) (sent : List Command)
    (ending : Ending) : Prop :=
  ending = .quit ∨ ending = .programEnded ∨ (∃ fault, ending = .faulted fault) ∨
    ∃ command ∈ sent, ∃ error, command.failure? program digitLimit = some error ∧
      ending = .commandFailed error

section Reason

variable {scheduler : Scheduler Time} {inbox : List Command} {now : Time} {turn : Turn Time}

theorem Turned.wellFormed (turned : Turned scheduler inbox now turn)
    (valid : scheduler.machine.WellFormed) : turn.scheduler.machine.WellFormed :=
  turned.chronicle wellFormed_chronicle (fun _ valid => valid.setDisplay _) valid

/-- A turn that ends a run of a machine in order does so for a reason that its commands allow. -/
theorem Turned.reason (turned : Turned scheduler inbox now turn)
    (valid : scheduler.machine.WellFormed) {ending : Ending}
    (ended : turn.ending = some ending) :
    ending = .exhausted ∨ CanEnd scheduler.program scheduler.digitLimit inbox ending := by
  -- Both loops end a turn in the ways that `CaughtUp.reason` names.
  have worked : ∀ {drained : Outcome (Scheduler Time × List Command) CommandError Unit}
      {result : Scheduler Time × Option Ending × List LogEvent},
      Drained now scheduler inbox drained → CaughtUp drained.state.1 now result →
        result.2.1 = some ending →
          ending = .exhausted ∨ CanEnd scheduler.program scheduler.digitLimit inbox ending := by
    intro drained result obeyed caughtUp ended
    rcases caughtUp.reason (wellFormed_chronicle.drained obeyed valid) ending ended with
      exhausted | finished | faulted
    · exact Or.inl exhausted
    · exact Or.inr (Or.inr (Or.inl finished))
    · exact Or.inr (Or.inr (Or.inr (Or.inl faulted)))
  cases turned with
  | commandFailed drained failed =>
      obtain ⟨command, member, failure⟩ := drained.of_error failed
      exact Or.inr (Or.inr (Or.inr (Or.inr
        ⟨command, member, _, failure, (Option.some.inj ended).symm⟩)))
  | quit _ _ => exact Or.inr (Or.inl (Option.some.inj ended).symm)
  | goesOn _ _ _ => cases ended
  | programEnded drained _ caughtUp => exact worked drained caughtUp ended
  | exhausted drained _ caughtUp => exact worked drained caughtUp ended
  | interrupted drained _ caughtUp => exact worked drained caughtUp ended

end Reason

end ChipEight.Scheduler
