import ChipEight.Proofs.Scheduler.View
import Mathlib.Data.List.Destutter

/-!
# Sounds that are heard

The window is told of the sound once in a turn, at its end.  What it is told are the changes of the
sound from one of these moments to the next, so that a sound is heard only if a turn ends while it
lasts.  A sound that begins and ends within one turn is not: the turn runs all instructions that are
due before it lets the timers tick.
-/

namespace ChipEight

/-- Whether the window is told what has changed. -/
def Deed.publishes {Time : Type} : Deed Time → Bool
  | .publish => true
  | _ => false

theorem Deed.eq_publish {Time : Type} {deed : Deed Time} (publishes : deed.publishes = true) :
    deed = .publish := by
  cases deed with
  | publish => rfl
  | _ => cases publishes

/-- Whether the sound is on, at the end of each turn that tells the window what has changed. -/
def soundsAtTurns {Time : Type} (run : List (Turn Time)) : List Bool :=
  run.filterMap fun turn =>
    match turn.ending with
    | none => some (decide (0 < turn.scheduler.machine.sound))
    | some .programEnded => some (decide (0 < turn.scheduler.machine.sound))
    | some _ => none

namespace Scheduler

variable {Time : Type} [Clock Time]

/-! ## Turns -/

section Turns

variable {scheduler : Scheduler Time} {inbox : List Command} {now : Time} {turn : Turn Time}

omit [Clock Time] in
/-- A turn that tells the window what has changed speaks of the sound if it has changed. -/
theorem Told.changes (told : Told scheduler turn)
    (awake : turn.ending = none ∨ turn.ending = some .programEnded) {later beeps : List Bool}
    (rest : later.destutter' (· ≠ ·) turn.scheduler.sounding = turn.scheduler.sounding :: beeps) :
    (decide (0 < turn.scheduler.machine.sound) :: later).destutter' (· ≠ ·) scheduler.sounding =
      scheduler.sounding :: (beepsOf turn.messages ++ beeps) := by
  rw [← (told.settled awake).2]
  rcases told.beeps with ⟨silent, same⟩ | ⟨spoken, flipped⟩
  · rw [same] at rest ⊢
    rw [List.destutter'_cons_neg _ (not_not.mpr rfl), rest, silent, List.nil_append]
  · rw [flipped] at rest ⊢
    have changed : scheduler.sounding ≠ !scheduler.sounding := by simp
    rw [List.destutter'_cons_pos _ changed, rest, spoken, List.singleton_append]

/-- What the window is told of the sound in a run are its changes from turn to turn. -/
theorem Ran.changes {run : List (Turn Time)} (ran : Ran scheduler inbox run) :
    (soundsAtTurns run).destutter' (· ≠ ·) scheduler.sounding =
      scheduler.sounding :: beepsOf (messagesOf run) := by
  induction ran with
  | unread => rfl
  | last turned _ =>
      have told := turned.told
      cases turned with
      | goesOn => exact (told.changes (Or.inl rfl) rfl).trans (by simp [messagesOf])
      | programEnded => exact (told.changes (Or.inr rfl) rfl).trans (by simp [messagesOf])
      | commandFailed | quit | exhausted => rfl
      | @interrupted _ _ interruption => cases interruption <;> rfl
  | @further _ _ _ _ turn rest turned goesOn _ inductionHypothesis =>
      have heard : soundsAtTurns (turn :: rest) =
          decide (0 < turn.scheduler.machine.sound) :: soundsAtTurns rest := by
        simp [soundsAtTurns, goesOn]
      have messages : messagesOf (turn :: rest) = turn.messages ++ messagesOf rest := rfl
      rw [heard, messages, beepsOf_append]
      exact turned.told.changes (Or.inl goesOn) inductionHypothesis

end Turns

/-! ## Deeds -/

/-- The sound is on, or off, behind each of some deeds. -/
def Sounds (on : Bool) (scheduler : Scheduler Time) : List (Deed Time) → Prop
  | [] => True
  | deed :: deeds =>
      let reached := (scheduler.perform deed).scheduler
      decide (0 < reached.machine.sound) = on ∧ reached.Sounds on deeds

instance decidableSounds (on : Bool) (scheduler : Scheduler Time) :
    (deeds : List (Deed Time)) → Decidable (scheduler.Sounds on deeds)
  | [] => inferInstanceAs (Decidable True)
  | deed :: deeds =>
      have := decidableSounds on (scheduler.perform deed).scheduler deeds
      inferInstanceAs (Decidable (_ ∧ _))

section Deeds

variable {scheduler : Scheduler Time}

omit [Clock Time] in
theorem beepsOf_publish_eq (scheduler : Scheduler Time) :
    let told := scheduler.publish.1.sounding
    beepsOf scheduler.publish.2 = if scheduler.sounding != told then [told] else [] := by
  rcases scheduler.beepsOf_publish with ⟨silent, same⟩ | ⟨spoken, flipped⟩
  · simp [silent, same]
  · simp [spoken, flipped]

/-- Only who publishes tells the window anything. -/
theorem perform_untold (scheduler : Scheduler Time) {deed : Deed Time}
    (untold : deed.publishes = false) :
    (scheduler.perform deed).messages = [] ∧
      (scheduler.perform deed).scheduler.sounding = scheduler.sounding := by
  cases deed with
  | publish => cases untold
  | obey command now => exact ⟨rfl, (scheduler.handle_keeps command now).2.2⟩
  | dueCycle | cycle | dueTick | tick => exact ⟨rfl, rfl⟩

/-- While the sound stays on, or off, the window hears of it once, if it hears anything and was told
otherwise. -/
theorem Sounds.beeps {on : Bool} {deeds : List (Deed Time)} (sounds : scheduler.Sounds on deeds) :
    let done := scheduler.performAll deeds
    beepsOf done.messages =
        (if deeds.any Deed.publishes && scheduler.sounding != on then [on] else []) ∧
      done.scheduler.sounding = if deeds.any Deed.publishes then on else scheduler.sounding := by
  induction deeds generalizing scheduler with
  | nil => exact ⟨rfl, rfl⟩
  | cons deed deeds inductionHypothesis =>
      obtain ⟨now, later⟩ := sounds
      obtain ⟨beeps, told⟩ := inductionHypothesis later
      cases publishes : deed.publishes with
      | false =>
          have any : (deed :: deeds).any Deed.publishes = deeds.any Deed.publishes := by
            simp [publishes]
          obtain ⟨silent, same⟩ := scheduler.perform_untold publishes
          rw [any]
          rw [same] at beeps told
          refine ⟨?_, told⟩
          rw [performAll, beepsOf_append, silent, beeps]
          rfl
      | true =>
          obtain rfl := Deed.eq_publish publishes
          have any : (Deed.publish :: deeds).any Deed.publishes = true := rfl
          -- Once it is told, the window knows of the sound until it changes.
          have known : scheduler.publish.1.sounding = on := now
          have spoken := scheduler.beepsOf_publish_eq
          simp only [perform, known, bne_self_eq_false, Bool.and_false] at beeps told spoken
          simp only [performAll, perform, beepsOf_append, beeps, told, spoken, any]
          simp

end Deeds

/-! ## Runs -/

theorem beepsOf_history (limit : Nat) (scheduler : Scheduler Time) (inbox : List Command)
    (ticks : List (Tick Time)) :
    beepsOf (messagesOf (scheduler.turns limit inbox ticks)) =
      beepsOf (scheduler.performAll (scheduler.history limit inbox ticks).flatten).messages := by
  have length : (scheduler.history limit inbox ticks).length =
      (scheduler.turns limit inbox ticks).length := length_history
  rcases List.eq_nil_or_concat (scheduler.turns limit inbox ticks) with
    unread | ⟨earlier, turn, split⟩
  · rw [unread] at length ⊢
    rw [List.eq_nil_of_length_eq_zero length]
    rfl
  · have met : (scheduler.turns limit inbox ticks)[earlier.length]? = some turn := by
      rw [split, List.concat_eq_append, List.getElem?_concat_length]
    obtain ⟨_, messages⟩ := performAll_history met
    have whole : (scheduler.turns limit inbox ticks).length = earlier.length + 1 := by
      rw [split, List.length_concat]
    rw [List.take_of_length_le (length.trans whole).le, List.take_of_length_le whole.le]
      at messages
    rw [messages, beepsOf_append, beepsOf_farewell, List.append_nil]

/-- The window is told the changes of the sound from the end of a turn to the end of the next, from
silence on.  Of a time for which the sound is on, or off, it hears if it was told otherwise and a
turn ends before the sound changes again, and it hears of it once. -/
theorem beeps_tell_turns_apart (scheduler : Scheduler Time) (silent : scheduler.sounding = false)
    (limit : Nat) (began : Time) (inbox : List Command) (ticks : List (Tick Time)) :
    let first := (scheduler.begin began).1
    let run := first.turns limit inbox ticks
    false :: beepsOf (messagesOf run) = (false :: soundsAtTurns run).destutter (· ≠ ·) ∧
      ∀ on before period later,
        (first.history limit inbox ticks).flatten = before ++ period ++ later →
        let met := (first.performAll before).scheduler
        met.Sounds on period →
          let passed := (met.performAll period).scheduler
          beepsOf (messagesOf run) =
              beepsOf (first.performAll before).messages ++
                (if period.any Deed.publishes && met.sounding != on then [on] else []) ++
                beepsOf (passed.performAll later).messages ∧
            passed.sounding = if period.any Deed.publishes then on else met.sounding := by
  intro first run
  constructor
  · have changes := (turns_ran limit first inbox ticks).changes
    rw [show first.sounding = false from silent] at changes
    exact changes.symm
  · intro on before period later split met sounds passed
    obtain ⟨beeps, told⟩ := sounds.beeps
    refine ⟨?_, told⟩
    rw [beepsOf_history, split, performAll_append (performAll_append rfl rfl) rfl,
      beepsOf_append, beepsOf_append, ← beeps]

/-- The sound begins in the second turn and lasts until the timers tick in the third one. -/
theorem beeps_tell_turns_apart_heard :
    let program : List Byte := [0x60, 0x01, 0xF0, 0x18, 0x12, 0x04]
    let machine := ((Machine.powerOn (.whole 120) true (.ofScript [])).load program).state
    let scheduler : Scheduler Rat := (start machine program true).1
    let run := (scheduler.begin 0).1.turns 9 [] [⟨0, []⟩, ⟨1 / 120, []⟩, ⟨1 / 60, []⟩]
    soundsAtTurns run = [false, true, false] ∧ beepsOf (messagesOf run) = [true, false] := by
  intro program machine scheduler run
  have sounds : soundsAtTurns run = [false, true, false] := by decide +kernel
  obtain ⟨told, _⟩ := beeps_tell_turns_apart scheduler rfl 9 0 []
    [⟨0, []⟩, ⟨1 / 120, []⟩, ⟨1 / 60, []⟩]
  rw [show soundsAtTurns ((scheduler.begin 0).1.turns 9 [] _) = _ from sounds] at told
  exact ⟨sounds, (List.cons.inj told).2⟩

/-- A sound for one tick that begins and ends in one turn is not heard. -/
theorem sound_within_turn_unheard :
    let program : List Byte := [0x60, 0x01, 0xF0, 0x18, 0x12, 0x04]
    let machine := ((Machine.powerOn (.whole 60) true (.ofScript [])).load program).state
    let first := ((start machine program true).1.begin (0 : Rat)).1
    let ticks : List (Tick Rat) := [⟨0, []⟩, ⟨1 / 60, []⟩]
    ∃ before period silence,
      (first.history 9 [] ticks).flatten = before ++ period ++ silence ∧
        period ≠ [] ∧ silence ≠ [] ∧
        first.Sounds false before ∧
        (first.performAll before).scheduler.Sounds true period ∧
        (first.performAll (before ++ period)).scheduler.Sounds false silence ∧
        (first.turns 9 [] ticks).map Turn.ending = [none, none] ∧
        beepsOf (messagesOf (first.turns 9 [] ticks)) = [] := by
  intro program machine first ticks
  refine ⟨[.cycle (1 / 60), .publish], [.cycle (1 / 60)], [.tick, .publish], ?_⟩
  decide +kernel

end Scheduler

end ChipEight
