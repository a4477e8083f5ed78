import ChipEight.Machine.Execute
import ChipEight.Proofs.Scheduler.Commands
import Mathlib.Data.List.Induction
import Mathlib.Data.List.Infix

/-!
# How a wait for a key ends

Key events arrive while the program waits for a key.  `EndsWait` says which of them ends the wait,
in terms of the events before it alone, and `StillWaits` describes the scheduler up to that event.
-/

namespace ChipEight

/-- A press or a release of the key with some index. -/
structure KeyEvent where
  index : Int
  pressed : Bool
  deriving DecidableEq

namespace Key

theorem ofIndex?_val (key : Key) : ofIndex? key.val = some key := by
  have named : 0 ≤ (key.val : Int) ∧ (key.val : Int) < 16 := by omega
  rw [ofIndex?, dif_pos named]
  rfl

theorem eq_val_of_ofIndex? {index : Int} {key : Key} (named : ofIndex? index = some key) :
    index = key.val := by
  simp only [ofIndex?] at named
  split at named
  next inside =>
    cases named
    exact (Int.toNat_of_nonneg inside.1).symm
  next => cases named

theorem ne_val_of_ofIndex?_eq_none {index : Int} (unnamed : ofIndex? index = none) (key : Key) :
    index ≠ key.val := by
  rintro rfl
  rw [ofIndex?_val] at unnamed
  cases unnamed

end Key

/-- A key is released among some events. -/
def Releases (events : List KeyEvent) (key : Key) : Prop :=
  ⟨key.val, false⟩ ∈ events

/-- The press of a key after some events of a wait ends it, unless the key is the one that was
pressed last before the wait and no key has been released since. -/
def EndsWait (last : Option Key) (before : List KeyEvent) (event : KeyEvent) : Prop :=
  ∃ key : Key, event = ⟨key.val, true⟩ ∧ (last ≠ some key ∨ ∃ released, Releases before released)

/-- None of the events ends the wait. -/
def NoneEndsWait (last : Option Key) (events : List KeyEvent) : Prop :=
  ∀ before event, before ++ [event] <+: events → ¬ EndsWait last before event

section Events

variable {events : List KeyEvent} {event : KeyEvent} {last : Option Key}

theorem releases_append_press (events : List KeyEvent) (index : Int) (key : Key) :
    Releases (events ++ [⟨index, true⟩]) key ↔ Releases events key := by
  simp [Releases]

theorem releases_append_release (events : List KeyEvent) (released key : Key) :
    Releases (events ++ [⟨released.val, false⟩]) key ↔ Releases events key ∨ key = released := by
  simp only [Releases, List.mem_append, List.mem_singleton, KeyEvent.mk.injEq, and_true,
    Int.natCast_inj, Fin.val_inj]

theorem releases_append_invalid (unnamed : Key.ofIndex? event.index = none) (key : Key) :
    Releases (events ++ [event]) key ↔ Releases events key := by
  have different : (⟨key.val, false⟩ : KeyEvent) ≠ event := by
    rintro rfl
    exact Key.ne_val_of_ofIndex?_eq_none unnamed key rfl
  simp [Releases, different]

theorem noneEndsWait_nil (last : Option Key) : NoneEndsWait last [] := by
  intro before event first
  simp at first

theorem noneEndsWait_concat :
    NoneEndsWait last (events ++ [event]) ↔
      NoneEndsWait last events ∧ ¬ EndsWait last events event := by
  constructor
  · intro none
    refine ⟨fun before earlier first => ?_, none events event (List.prefix_refl _)⟩
    exact none before earlier (first.trans (List.prefix_append events [event]))
  · rintro ⟨none, ignored⟩ before earlier first
    rcases List.prefix_concat_iff.mp first with same | inner
    · obtain ⟨rfl, rfl⟩ := List.append_singleton_inj.mp same
      exact ignored
    · exact none before earlier inner

end Events

namespace Scheduler

variable {Time : Type}

/-- The scheduler after some key events.  One that names no key changes nothing, whether or not it
can be reported. -/
def handleKeys (scheduler : Scheduler Time) (events : List KeyEvent) : Scheduler Time :=
  events.foldl (fun reached event => (reached.handleKey event.index event.pressed).state) scheduler

theorem handleKeys_concat (scheduler : Scheduler Time) (events : List KeyEvent)
    (event : KeyEvent) :
    scheduler.handleKeys (events ++ [event]) =
      ((scheduler.handleKeys events).handleKey event.index event.pressed).state :=
  List.foldl_concat _ _ _ _

/-! ## One event -/

section Event

variable {scheduler : Scheduler Time}

theorem handleKey_press (scheduler : Scheduler Time) (key : Key) :
    (scheduler.handleKey key.val true).state = (scheduler.pressKey key).1 :=
  scheduler.handleKey_of_some key.val true key.ofIndex?_val

theorem handleKey_release (scheduler : Scheduler Time) (key : Key) :
    (scheduler.handleKey key.val false).state = scheduler.releaseKey key :=
  scheduler.handleKey_of_some key.val false key.ofIndex?_val

/-- The key that was pressed last does not end the wait: the press is one of a key that is held. -/
theorem pressKey_repeated (waiting : scheduler.machine.waiting = true) {key : Key}
    (last : scheduler.lastKey = some key) : (scheduler.pressKey key).1 = scheduler := by
  rw [pressKey, if_pos waiting, if_pos last, ← last]

/-- Any other key ends the wait, and the machine takes its index. -/
theorem pressKey_fresh (waiting : scheduler.machine.waiting = true) {key : Key}
    (fresh : scheduler.lastKey ≠ some key) :
    (scheduler.pressKey key).1 =
      { scheduler with
        lastKey := some key
        machine := { scheduler.machine with
          registers := scheduler.machine.registers.set scheduler.machine.waitRegister key.val
          waiting := false
          pc := scheduler.machine.pc + 2 } } := by
  have small : (key.val : Int) % 256 = key.val := by omega
  rw [pressKey, if_pos waiting, if_neg fresh]
  simp only [Machine.endWait, waiting, if_true, small]
  rfl

/-- A key event does not begin a wait. -/
theorem handleKey_awake (awake : scheduler.machine.waiting = false) (index : Int)
    (pressed : Bool) : (scheduler.handleKey index pressed).state.machine.waiting = false := by
  cases named : Key.ofIndex? index with
  | none =>
      rw [handleKey_of_none _ _ _ named]
      exact awake
  | some key =>
      obtain rfl := Key.eq_val_of_ofIndex? named
      cases pressed with
      | true =>
          rw [handleKey_press, pressKey, if_neg (by simp [awake])]
          exact awake
      | false =>
          rw [handleKey_release]
          exact awake

end Event

/-! ## Events of a wait -/

/-- How far key events that do not end a wait can change a waiting scheduler. -/
structure StillWaits (scheduler : Scheduler Time) (events : List KeyEvent)
    (reached : Scheduler Time) : Prop where
  frame : reached =
    { scheduler with
      lastKey := reached.lastKey
      machine := { scheduler.machine with keypad := reached.machine.keypad } }
  forgotten : (∃ released, Releases events released) → reached.lastKey = none
  remembered : (¬ ∃ released, Releases events released) → reached.lastKey = scheduler.lastKey
  pressed (key : Key) : reached.machine.keypad.isPressed key = true ↔
    scheduler.machine.keypad.isPressed key = true ∧ ¬ Releases events key

namespace StillWaits

variable {scheduler reached : Scheduler Time} {events : List KeyEvent} {event : KeyEvent}

theorem refl (scheduler : Scheduler Time) : StillWaits scheduler [] scheduler where
  frame := rfl
  forgotten := by simp [Releases]
  remembered _ := rfl
  pressed key := by simp [Releases]

theorem waiting (waits : StillWaits scheduler events reached)
    (waiting : scheduler.machine.waiting = true) : reached.machine.waiting = true := by
  rw [waits.frame]
  exact waiting

/-- Events that release the same keys make no difference. -/
theorem congr (waits : StillWaits scheduler events reached) {others : List KeyEvent}
    (same : ∀ key, Releases others key ↔ Releases events key) :
    StillWaits scheduler others reached where
  frame := waits.frame
  forgotten released := waits.forgotten (by simpa only [same] using released)
  remembered none := waits.remembered (by simpa only [same] using none)
  pressed key := by rw [same, waits.pressed]

theorem release (waits : StillWaits scheduler events reached)
    (waiting : scheduler.machine.waiting = true) (key : Key) :
    StillWaits scheduler (events ++ [⟨key.val, false⟩]) (reached.releaseKey key) where
  frame := by
    have frame := waits.frame
    simp only [releaseKey, Machine.setKey] at frame ⊢
    rw [frame]
  forgotten _ := by simp [releaseKey, waits.waiting waiting]
  remembered none := absurd ⟨key, (releases_append_release events key key).mpr (Or.inr rfl)⟩ none
  pressed other := by
    rw [releases_append_release, not_or, ← and_assoc, ← waits.pressed]
    simp only [releaseKey, Machine.setKey, Keypad.isPressed_set]
    split
    next same => simp [same]
    next different => simp [different]

/-- An event that does not end the wait leaves it going on. -/
theorem concat (waits : StillWaits scheduler events reached)
    (waiting : scheduler.machine.waiting = true)
    (ignored : ¬ EndsWait scheduler.lastKey events event) :
    StillWaits scheduler (events ++ [event])
      (reached.handleKey event.index event.pressed).state := by
  cases named : Key.ofIndex? event.index with
  | none =>
      rw [handleKey_of_none _ _ _ named]
      exact waits.congr (releases_append_invalid named)
  | some key =>
      obtain ⟨index, pressed⟩ := event
      obtain rfl := Key.eq_val_of_ofIndex? named
      cases pressed with
      | false =>
          rw [handleKey_release]
          exact waits.release waiting key
      | true =>
          -- Only the press of the last key is ignored, and only as long as no key is released.
          have quiet : ¬ ∃ released, Releases events released :=
            fun released => ignored ⟨key, rfl, Or.inr released⟩
          have repeated : scheduler.lastKey = some key := by
            by_contra fresh
            exact ignored ⟨key, rfl, Or.inl fresh⟩
          have last := (waits.remembered quiet).trans repeated
          rw [handleKey_press, pressKey_repeated (waits.waiting waiting) last]
          exact waits.congr (releases_append_press events key.val)

/-- An event that ends the wait loads the key and goes on behind the instruction that waits. -/
theorem resolve (waits : StillWaits scheduler events reached)
    (waiting : scheduler.machine.waiting = true)
    (ends : EndsWait scheduler.lastKey events event) :
    ∃ key : Key, event = ⟨key.val, true⟩ ∧
      (reached.handleKey event.index event.pressed).state =
        { scheduler with
          lastKey := some key
          machine := { scheduler.machine with
            registers := scheduler.machine.registers.set scheduler.machine.waitRegister key.val
            waiting := false
            pc := scheduler.machine.pc + 2
            keypad := reached.machine.keypad } } := by
  obtain ⟨key, rfl, fresh⟩ := ends
  refine ⟨key, rfl, ?_⟩
  have unlike : reached.lastKey ≠ some key := by
    by_cases released : ∃ released, Releases events released
    · rw [waits.forgotten released]
      exact Option.some_ne_none key |>.symm
    · rw [waits.remembered released]
      exact fresh.resolve_right released
  rw [handleKey_press, pressKey_fresh (waits.waiting waiting) unlike]
  rw [waits.frame]

end StillWaits

/-! ## Lists of events -/

section Lists

variable {scheduler : Scheduler Time} {events : List KeyEvent}

theorem handleKeys_stillWaits (waiting : scheduler.machine.waiting = true)
    (none : NoneEndsWait scheduler.lastKey events) :
    StillWaits scheduler events (scheduler.handleKeys events) := by
  induction events using List.reverseRecOn with
  | nil => exact .refl scheduler
  | append_singleton events event inductionHypothesis =>
      obtain ⟨earlier, ignored⟩ := noneEndsWait_concat.mp none
      rw [handleKeys_concat]
      exact (inductionHypothesis earlier).concat waiting ignored

/-- A scheduler that still waits has met no event that ends a wait, since a wait that has ended
stays so. -/
theorem noneEndsWait_of_waiting (waiting : scheduler.machine.waiting = true)
    (still : (scheduler.handleKeys events).machine.waiting = true) :
    NoneEndsWait scheduler.lastKey events := by
  induction events using List.reverseRecOn with
  | nil => exact noneEndsWait_nil _
  | append_singleton events event inductionHypothesis =>
      rw [handleKeys_concat] at still
      have before : (scheduler.handleKeys events).machine.waiting = true := by
        by_contra awake
        have after := handleKey_awake (Bool.eq_false_iff.mpr awake) event.index
          event.pressed
        rw [still] at after
        cases after
      have none := inductionHypothesis before
      refine noneEndsWait_concat.mpr ⟨none, fun ends => ?_⟩
      obtain ⟨key, _, resolved⟩ := (handleKeys_stillWaits waiting none).resolve waiting ends
      rw [resolved] at still
      cases still

end Lists

/-- A wait ends with the first press of a key that is not the last one, or of any key once a key
has been released, and with no other event.  The press is loaded and not recorded; until then the
keys that are released are all that changes. -/
theorem wait_ends_with_first_fresh_press (scheduler : Scheduler Time)
    (waiting : scheduler.machine.waiting = true) (events : List KeyEvent) :
    (NoneEndsWait scheduler.lastKey events →
      (scheduler.handleKeys events).machine.waiting = true ∧
        (scheduler.handleKeys events).machine.registers = scheduler.machine.registers ∧
        (scheduler.handleKeys events).machine.pc = scheduler.machine.pc) ∧
    ∀ before event, before ++ [event] <+: events →
      ((scheduler.handleKeys before).machine.waiting = true ∧
          (scheduler.handleKeys (before ++ [event])).machine.waiting = false ↔
        NoneEndsWait scheduler.lastKey before ∧ EndsWait scheduler.lastKey before event) ∧
      (NoneEndsWait scheduler.lastKey before → EndsWait scheduler.lastKey before event →
        ∃ (key : Key) (keypad : Keypad),
          event = ⟨key.val, true⟩ ∧
          (∀ other, keypad.isPressed other = true ↔
            scheduler.machine.keypad.isPressed other = true ∧ ¬ Releases before other) ∧
          scheduler.handleKeys (before ++ [event]) =
            { scheduler with
              lastKey := some key
              machine := { scheduler.machine with
                registers :=
                  scheduler.machine.registers.set scheduler.machine.waitRegister key.val
                waiting := false
                pc := scheduler.machine.pc + 2
                keypad := keypad } }) := by
  constructor
  · intro none
    have waits := handleKeys_stillWaits waiting none
    refine ⟨waits.waiting waiting, ?_, ?_⟩ <;> rw [waits.frame]
  · intro before event _
    rw [handleKeys_concat]
    refine ⟨⟨?_, ?_⟩, ?_⟩
    · rintro ⟨still, awake⟩
      have none := noneEndsWait_of_waiting waiting still
      have waits := handleKeys_stillWaits waiting none
      refine ⟨none, ?_⟩
      by_contra ignored
      have later := (waits.concat waiting ignored).waiting waiting
      rw [awake] at later
      cases later
    · rintro ⟨none, ends⟩
      have waits := handleKeys_stillWaits waiting none
      obtain ⟨key, _, resolved⟩ := waits.resolve waiting ends
      exact ⟨waits.waiting waiting, by rw [resolved]⟩
    · intro none ends
      have waits := handleKeys_stillWaits waiting none
      obtain ⟨key, pressed, resolved⟩ := waits.resolve waiting ends
      exact ⟨key, _, pressed, waits.pressed, resolved⟩

/-- The last key is pressed again, which is ignored until some other key has been released. -/
theorem wait_ends_with_first_fresh_press_again :
    let machine := ((Machine.powerOn (.whole 600) true (.ofScript [])).execute 0xF20A).state
    let scheduler : Scheduler Rat := { (start machine [0xF2, 0x0A] true).1 with lastKey := some 3 }
    let before : List KeyEvent := [⟨99, true⟩, ⟨3, true⟩, ⟨-1, false⟩, ⟨5, false⟩]
    let reached := scheduler.handleKeys (before ++ [⟨3, true⟩])
    scheduler.machine.waiting = true ∧
      NoneEndsWait scheduler.lastKey before ∧ EndsWait scheduler.lastKey before ⟨3, true⟩ ∧
      reached.machine.waiting = false ∧ reached.machine.register 2 = 3 ∧
      reached.machine.pc = 0x202 ∧ reached.lastKey = some 3 := by
  intro machine scheduler before reached
  have waiting : scheduler.machine.waiting = true := by decide
  have first : before ++ [⟨3, true⟩] <+: before ++ [⟨3, true⟩, ⟨7, true⟩] :=
    ⟨[⟨7, true⟩], by simp⟩
  obtain ⟨ended, resolved⟩ :=
    (wait_ends_with_first_fresh_press scheduler waiting (before ++ [⟨3, true⟩, ⟨7, true⟩])).2
      before ⟨3, true⟩ first
  obtain ⟨none, ends⟩ := ended.mp (by decide)
  obtain ⟨key, keypad, pressed, _, after⟩ := resolved none ends
  have loaded : scheduler.machine.waitRegister = 2 := by decide
  have here : scheduler.machine.pc = 0x200 := by decide
  have index : (key.val : Int) = 3 := (congrArg KeyEvent.index pressed).symm
  have three : some key = some 3 := congrArg some (Fin.ext (by omega))
  refine ⟨waiting, none, ends, ?_⟩
  simp [reached, after, Machine.register, loaded, here, index, three]

end Scheduler

end ChipEight
