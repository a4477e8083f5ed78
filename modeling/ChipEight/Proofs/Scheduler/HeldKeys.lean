import ChipEight.Proofs.Machine.Equipment
import ChipEight.Proofs.Scheduler.Deeds
import ChipEight.Proofs.Scheduler.KeyWait

/-!
# Keys that are held down

Which keys the keypad shows as pressed, and which key was pressed last, as facts about all that a
scheduler has done.  A press that ends a wait is not recorded, while a release always is, so that no
key stays down once it has been released.  `Since` puts both facts in one form: something has
happened, and nothing after it has undone it.
-/

namespace ChipEight

/-- Among some events one happened that nothing after it has undone.  What happens is seen together
with the events before it. -/
def Since {α : Type} (happened : List α → α → Prop) (kept : α → Prop) (events : List α) : Prop :=
  ∃ earlier event later,
    events = earlier ++ event :: later ∧ happened earlier event ∧ ∀ other ∈ later, kept other

section Since

variable {α : Type} {happened : List α → α → Prop} {kept : α → Prop}

theorem since_nil (happened : List α → α → Prop) (kept : α → Prop) : ¬ Since happened kept [] := by
  rintro ⟨earlier, event, later, split, _⟩
  simp at split

/-- One more event makes the condition true, or leaves it true if the event keeps it. -/
theorem since_concat {events : List α} {event : α} :
    Since happened kept (events ++ [event]) ↔
      happened events event ∨ (Since happened kept events ∧ kept event) := by
  constructor
  · rintro ⟨earlier, found, later, split, happens, undisturbed⟩
    cases later using List.reverseRecOn with
    | nil =>
        obtain ⟨rfl, rfl⟩ := List.append_singleton_inj.mp split
        exact Or.inl happens
    | append_singleton later last _ =>
        rw [← List.cons_append, ← List.append_assoc] at split
        obtain ⟨rfl, rfl⟩ := List.append_singleton_inj.mp split
        have before : ∀ other ∈ later, kept other :=
          fun other member => undisturbed other (List.mem_append_left _ member)
        have after : kept event := undisturbed event List.mem_concat_self
        exact Or.inr ⟨⟨earlier, found, later, rfl, happens, before⟩, after⟩
  · rintro (happens | ⟨⟨earlier, found, later, rfl, happens, undisturbed⟩, after⟩)
    · exact ⟨events, event, [], rfl, happens, fun other member => absurd member List.not_mem_nil⟩
    · refine ⟨earlier, found, later ++ [event], by simp, happens, ?_⟩
      intro other member
      rcases List.mem_append.mp member with inner | last
      · exact undisturbed other inner
      · rw [List.mem_singleton.mp last]
        exact after

end Since

namespace Deed

variable {Time : Type}

def Presses (key : Key) (deed : Deed Time) : Prop :=
  deed.command? = some (.setKey key.val true)

def Releases (key : Key) (deed : Deed Time) : Prop :=
  deed.command? = some (.setKey key.val false)

def Resets (deed : Deed Time) : Prop :=
  deed.command? = some .reset

/-- Key events and resets concern the keys, and nothing else does. -/
def concernsKeys : Deed Time → Bool
  | .obey (.setKey _ _) _ => true
  | .obey .reset _ => true
  | _ => false

theorem presses_obey_iff {index : Int} {pressed : Bool} {now : Time} {key : Key} :
    (Deed.obey (.setKey index pressed) now).Presses key ↔ index = key.val ∧ pressed = true := by
  simp [Presses, command?]

theorem releases_obey_iff {index : Int} {pressed : Bool} {now : Time} {key : Key} :
    (Deed.obey (.setKey index pressed) now).Releases key ↔ index = key.val ∧ pressed = false := by
  simp [Releases, command?]

theorem not_resets_setKey (index : Int) (pressed : Bool) (now : Time) :
    ¬ (Deed.obey (.setKey index pressed) now).Resets := by
  simp [Resets, command?]

theorem not_presses_reset (key : Key) (now : Time) : ¬ (Deed.obey .reset now).Presses key := by
  simp [Presses, command?]

theorem not_releases_reset (key : Key) (now : Time) : ¬ (Deed.obey .reset now).Releases key := by
  simp [Releases, command?]

theorem quiet_of_unconcerned {deed : Deed Time} (unconcerned : deed.concernsKeys = false)
    (key : Key) : ¬ deed.Presses key ∧ ¬ deed.Releases key ∧ ¬ deed.Resets := by
  cases deed with
  | obey command now =>
      cases command <;> simp_all [concernsKeys, Presses, Releases, Resets, command?]
  | _ => simp [Presses, Releases, Resets, command?]

end Deed

namespace Scheduler

variable {Time : Type} [Clock Time]

/-! ## One deed -/

section Step

variable {scheduler : Scheduler Time} {key : Key}

omit [Clock Time] in
theorem pressKey_keypad (scheduler : Scheduler Time) (named key : Key) :
    (scheduler.pressKey named).1.machine.keypad.isPressed key = true ↔
      (named = key ∧ scheduler.machine.waiting = false) ∨
        scheduler.machine.keypad.isPressed key = true := by
  cases waiting : scheduler.machine.waiting with
  | true =>
      by_cases last : scheduler.lastKey = some named
      · rw [pressKey_repeated waiting last]
        simp
      · rw [pressKey_fresh waiting last]
        simp
  | false =>
      rw [pressKey, if_neg (by simp [waiting])]
      simp only [Machine.setKey, Keypad.isPressed_set]
      by_cases same : key = named
      · simp [same]
      · simp [same, Ne.symm same]

omit [Clock Time] in
/-- A key is down behind a command that presses it outside a wait, and stays down until one releases
it. -/
theorem handleKey_keypad (scheduler : Scheduler Time) (index : Int) (pressed : Bool) (key : Key) :
    (scheduler.handleKey index pressed).state.machine.keypad.isPressed key = true ↔
      ((index = key.val ∧ pressed = true) ∧ scheduler.machine.waiting = false) ∨
        (scheduler.machine.keypad.isPressed key = true ∧
          ¬ (index = key.val ∧ pressed = false)) := by
  cases named : Key.ofIndex? index with
  | none =>
      have different := Key.ne_val_of_ofIndex?_eq_none named key
      rw [handleKey_of_none _ _ _ named]
      simp [different]
  | some found =>
      obtain rfl := Key.eq_val_of_ofIndex? named
      have same : (found.val : Int) = key.val ↔ found = key := by
        rw [Int.natCast_inj, Fin.val_inj]
      cases pressed with
      | true =>
          rw [handleKey_press, pressKey_keypad, same]
          simp
      | false =>
          rw [handleKey_release, same]
          simp only [releaseKey, Machine.setKey, Keypad.isPressed_set]
          by_cases released : key = found
          · simp [released]
          · simp [released, Ne.symm released]

theorem reload_keypad (scheduler : Scheduler Time) (now : Time) :
    (scheduler.reload now).state.machine.keypad = .released := by
  have loaded := scheduler.machine.reset.load_equipment scheduler.program
  have cleared := congrArg Equipment.keypad loaded
  simp only [reload]
  split <;> exact cleared

theorem isPressed_released (key : Key) : Keypad.released.isPressed key = false := by
  simp [Keypad.released, Keypad.isPressed]

/-- A key is down after a deed if the deed pressed it while no wait was going on, or if it was down
before and the deed neither releases it nor resets the machine. -/
theorem perform_keypad (scheduler : Scheduler Time) (deed : Deed Time) (key : Key) :
    (scheduler.perform deed).scheduler.machine.keypad.isPressed key = true ↔
      (deed.Presses key ∧ scheduler.machine.waiting = false) ∨
        (scheduler.machine.keypad.isPressed key = true ∧ ¬ deed.Releases key ∧ ¬ deed.Resets) := by
  have silent : ∀ {after : Keypad}, after = scheduler.machine.keypad → deed.concernsKeys = false →
      (after.isPressed key = true ↔
        (deed.Presses key ∧ scheduler.machine.waiting = false) ∨
          (scheduler.machine.keypad.isPressed key = true ∧ ¬ deed.Releases key ∧
            ¬ deed.Resets)) := by
    intro after same unconcerned
    obtain ⟨noPress, noRelease, noReset⟩ := Deed.quiet_of_unconcerned unconcerned key
    simp [same, noPress, noRelease, noReset]
  cases deed with
  | obey command now =>
      cases command with
      | setKey index pressed =>
          have handled := scheduler.handleKey_keypad index pressed key
          have noReset := Deed.not_resets_setKey index pressed now
          rw [Deed.presses_obey_iff, Deed.releases_obey_iff, and_iff_left noReset]
          exact handled
      | reset =>
          have cleared := scheduler.reload_keypad now
          simp only [perform, handle, cleared, isPressed_released]
          simp [Deed.Presses, Deed.Resets, Deed.command?]
      | setRunning running =>
          have same := congrArg Machine.keypad (scheduler.setRunning_machine running now)
          exact silent same rfl
      | quit => exact silent rfl rfl
      | stray text => exact silent rfl rfl
      | unwritable reason => exact silent rfl rfl
  | cycle period =>
      have same := congrArg Equipment.keypad scheduler.machine.cycle_equipment
      exact silent same rfl
  | dueCycle time => exact silent rfl rfl
  | dueTick time => exact silent rfl rfl
  | tick => exact silent rfl rfl
  | publish => exact silent rfl rfl

omit [Clock Time] in
theorem pressKey_lastKey (scheduler : Scheduler Time) (named : Key) :
    (scheduler.pressKey named).1.lastKey = some named := by
  rw [pressKey]
  split
  · split <;> rfl
  · rfl

omit [Clock Time] in
/-- The last key was just pressed, or it was the last before and no command named another or
released it. -/
theorem handleKey_lastKey {index : Int} {pressed : Bool}
    (last : (scheduler.handleKey index pressed).state.lastKey = some key) :
    (index = key.val ∧ pressed = true) ∨
      (scheduler.lastKey = some key ∧ (∀ other : Key, ¬ (index = other.val ∧ pressed = true)) ∧
        ¬ (index = key.val ∧ pressed = false)) := by
  cases named : Key.ofIndex? index with
  | none =>
      have different := Key.ne_val_of_ofIndex?_eq_none named
      rw [handleKey_of_none _ _ _ named] at last
      exact Or.inr ⟨last, fun other pressed => different other pressed.1,
        fun released => different key released.1⟩
  | some found =>
      obtain rfl := Key.eq_val_of_ofIndex? named
      cases pressed with
      | true =>
          rw [handleKey_press, pressKey_lastKey] at last
          obtain rfl := Option.some.inj last
          exact Or.inl ⟨rfl, rfl⟩
      | false =>
          rw [handleKey_release] at last
          simp only [releaseKey] at last
          split at last
          next => cases last
          next kept =>
            have different : found ≠ key := by
              rintro rfl
              exact kept (Or.inr last)
            have noPress : ∀ other : Key, ¬ ((found.val : Int) = other.val ∧ false = true) := by
              simp
            refine Or.inr ⟨last, noPress, fun released => different (Fin.ext ?_)⟩
            exact Int.natCast_inj.mp released.1

/-- A reset whose program does not fit raises before the last key is forgotten. -/
theorem reload_lastKey (scheduler : Scheduler Time) (now : Time) :
    (scheduler.reload now).state.lastKey =
      if scheduler.program.length ≤ 3584 then none else scheduler.lastKey := by
  by_cases fits : scheduler.program.length ≤ 3584
  · rw [reload_of_fits scheduler fits, if_pos fits]
  · have refused := load_reset_of_too_large scheduler.machine (Nat.lt_of_not_le fits)
    simp only [reload, refused, if_neg fits]

/-- The last key is a key that the deed pressed, or it was the last one before and the deed neither
presses a key nor releases this one nor resets the machine to its program. -/
theorem perform_lastKey {deed : Deed Time}
    (last : (scheduler.perform deed).scheduler.lastKey = some key) :
    deed.Presses key ∨
      (scheduler.lastKey = some key ∧ (∀ other, ¬ deed.Presses other) ∧ ¬ deed.Releases key ∧
        (scheduler.program.length ≤ 3584 → ¬ deed.Resets)) := by
  have silent : scheduler.lastKey = some key → deed.concernsKeys = false →
      deed.Presses key ∨
        (scheduler.lastKey = some key ∧ (∀ other, ¬ deed.Presses other) ∧ ¬ deed.Releases key ∧
          (scheduler.program.length ≤ 3584 → ¬ deed.Resets)) := by
    intro same unconcerned
    have quiet := Deed.quiet_of_unconcerned unconcerned
    obtain ⟨_, noRelease, noReset⟩ := quiet key
    exact Or.inr ⟨same, fun other => (quiet other).1, noRelease, fun _ => noReset⟩
  cases deed with
  | obey command now =>
      cases command with
      | setKey index pressed =>
          have noReset := Deed.not_resets_setKey index pressed now
          simp only [Deed.presses_obey_iff, Deed.releases_obey_iff]
          rcases handleKey_lastKey last with pressed | ⟨same, noPress, noRelease⟩
          · exact Or.inl pressed
          · exact Or.inr ⟨same, noPress, noRelease, fun _ => noReset⟩
      | reset =>
          have cleared := scheduler.reload_lastKey now
          simp only [perform, handle, cleared] at last
          by_cases fits : scheduler.program.length ≤ 3584
          · rw [if_pos fits] at last
            cases last
          · rw [if_neg fits] at last
            exact Or.inr ⟨last, fun other => Deed.not_presses_reset other now,
              Deed.not_releases_reset key now, fun small => absurd small fits⟩
      | setRunning running =>
          obtain ⟨_, _, _, frame⟩ := scheduler.setRunning_frame running now
          have same := congrArg Scheduler.lastKey frame
          exact silent (same.symm.trans last) rfl
      | quit => exact silent last rfl
      | stray text => exact silent last rfl
      | unwritable reason => exact silent last rfl
  | cycle period => exact silent last rfl
  | dueCycle time => exact silent last rfl
  | dueTick time => exact silent last rfl
  | tick => exact silent last rfl
  | publish => exact silent last rfl

theorem perform_program (scheduler : Scheduler Time) (deed : Deed Time) :
    (scheduler.perform deed).scheduler.program = scheduler.program := by
  cases deed with
  | obey command now => exact (scheduler.handle_keeps command now).1
  | _ => rfl

end Step

/-! ## Many deeds -/

section Deeds

variable {scheduler : Scheduler Time}

theorem performAll_concat (scheduler : Scheduler Time) (deeds : List (Deed Time))
    (deed : Deed Time) :
    (scheduler.performAll (deeds ++ [deed])).scheduler =
      ((scheduler.performAll deeds).scheduler.perform deed).scheduler := by
  rw [scheduler_performAll_append, performAll_singleton]

theorem performAll_program (scheduler : Scheduler Time) (deeds : List (Deed Time)) :
    (scheduler.performAll deeds).scheduler.program = scheduler.program := by
  induction deeds using List.reverseRecOn with
  | nil => rfl
  | append_singleton deeds deed inductionHypothesis =>
      rw [performAll_concat, perform_program, inductionHypothesis]

/-- By induction over the history from its end, which is where `Since` looks. -/
theorem performAll_keypad (released : scheduler.machine.keypad = .released)
    (deeds : List (Deed Time)) (key : Key) :
    (scheduler.performAll deeds).scheduler.machine.keypad.isPressed key = true ↔
      Since
        (fun earlier deed => deed.Presses key ∧
          (scheduler.performAll earlier).scheduler.machine.waiting = false)
        (fun deed => ¬ deed.Releases key ∧ ¬ deed.Resets) deeds := by
  induction deeds using List.reverseRecOn with
  | nil =>
      have up : scheduler.machine.keypad.isPressed key = false := by
        rw [released, isPressed_released]
      have silent := since_nil (α := Deed Time)
        (fun earlier deed => deed.Presses key ∧
          (scheduler.performAll earlier).scheduler.machine.waiting = false)
        (fun deed => ¬ deed.Releases key ∧ ¬ deed.Resets)
      simp [performAll, up, silent]
  | append_singleton deeds deed inductionHypothesis =>
      rw [performAll_concat, perform_keypad, since_concat, inductionHypothesis]

theorem performAll_lastKey (forgotten : scheduler.lastKey = none) {deeds : List (Deed Time)}
    {key : Key} (last : (scheduler.performAll deeds).scheduler.lastKey = some key) :
    Since (fun _ deed => deed.Presses key)
      (fun deed => (∀ other, ¬ deed.Presses other) ∧ ¬ deed.Releases key ∧
        (scheduler.program.length ≤ 3584 → ¬ deed.Resets)) deeds := by
  induction deeds using List.reverseRecOn with
  | nil =>
      rw [performAll, forgotten] at last
      cases last
  | append_singleton deeds deed inductionHypothesis =>
      rw [performAll_concat] at last
      have step := perform_lastKey last
      rw [performAll_program] at step
      rw [since_concat]
      rcases step with presses | ⟨before, kept⟩
      · exact Or.inl presses
      · exact Or.inr ⟨inductionHypothesis before, kept⟩

end Deeds

/-- A key is down as long as its press is recorded, which it is unless the program waits, and until
the key is released or the machine is reset.  The last key is the one of the latest press since a
reset has loaded the program again, and is forgotten when it is released.  When every key that was
pressed has been released, no key is down and none is the last one. -/
theorem keys_down_until_released (clock : Hertz) (shiftUsesVy : Bool) (random : ByteSource)
    (loaded program : List Byte) (running : Bool) (limit : Nat) (began : Time)
    (inbox : List Command) (ticks : List (Tick Time)) :
    let fresh := ((Machine.powerOn clock shiftUsesVy random).load loaded).state
    let begun : Scheduler Time := ((start fresh program running).1.begin began).1
    (∀ turn ∈ begun.turns limit inbox ticks,
      begun.ComesThrough limit inbox ticks turn.scheduler) ∧
    ∀ deeds : List (Deed Time),
      let reached := (begun.performAll deeds).scheduler
      (∀ key, reached.machine.keypad.isPressed key = true ↔
        Since
          (fun earlier deed => deed.Presses key ∧
            (begun.performAll earlier).scheduler.machine.waiting = false)
          (fun deed => ¬ deed.Releases key ∧ ¬ deed.Resets) deeds) ∧
      (∀ key, reached.lastKey = some key →
        Since (fun _ deed => deed.Presses key)
          (fun deed => (∀ other, ¬ deed.Presses other) ∧ ¬ deed.Releases key ∧
            (program.length ≤ 3584 → ¬ deed.Resets)) deeds) ∧
      ((∀ earlier press later key, deeds = earlier ++ press :: later → press.Presses key →
          ∃ deed ∈ later, deed.Releases key) →
        (∀ key, reached.machine.keypad.isPressed key = false) ∧ reached.lastKey = none) := by
  intro fresh begun
  have released : begun.machine.keypad = .released :=
    congrArg Equipment.keypad ((Machine.powerOn clock shiftUsesVy random).load_equipment loaded)
  have forgotten : begun.lastKey = none := rfl
  refine ⟨fun turn met => comesThrough_turn met, ?_⟩
  intro deeds reached
  have down := performAll_keypad released deeds
  have latest : ∀ key, reached.lastKey = some key → _ :=
    fun key last => performAll_lastKey forgotten last
  refine ⟨down, latest, fun allReleased => ⟨fun key => ?_, ?_⟩⟩
  · by_contra pressed
    obtain ⟨earlier, press, later, split, ⟨presses, _⟩, kept⟩ :=
      (down key).mp (eq_true_of_ne_false pressed)
    obtain ⟨deed, member, releases⟩ := allReleased earlier press later key split presses
    exact (kept deed member).1 releases
  · by_contra remembered
    obtain ⟨key, last⟩ := Option.ne_none_iff_exists'.mp remembered
    obtain ⟨earlier, press, later, split, presses, kept⟩ := latest key last
    obtain ⟨deed, member, releases⟩ := allReleased earlier press later key split presses
    exact (kept deed member).2.1 releases

/-- A key that is held, another one that ends a wait, and the release of both. -/
theorem keys_down_until_released_wait :
    let fresh := ((Machine.powerOn (.whole 600) false (.ofScript [])).load [0xf0, 0x0a]).state
    let begun : Scheduler Rat := ((start fresh [0xf0, 0x0a] true).1.begin 0).1
    let held : List (Deed Rat) :=
      [.obey (.setKey 3 true) 0, .cycle (1 / 600), .obey (.setKey 5 true) 0]
    let releases : List (Deed Rat) := [.obey (.setKey 3 false) 0, .obey (.setKey 5 false) 0]
    let holding := (begun.performAll held).scheduler
    let reached := (begun.performAll (held ++ releases)).scheduler
    (holding.machine.keypad.isPressed 3 = true ∧ holding.machine.keypad.isPressed 5 = false ∧
        holding.machine.waiting = false ∧ holding.lastKey = some 5) ∧
      (∀ key, reached.machine.keypad.isPressed key = false) ∧ reached.lastKey = none := by
  intro fresh begun held releases holding reached
  have before : holding.machine.keypad.isPressed 3 = true ∧
      holding.machine.keypad.isPressed 5 = false ∧ holding.machine.waiting = false ∧
      holding.lastKey = some 5 := by
    decide +kernel
  have allReleased : ∀ earlier press later key, held ++ releases = earlier ++ press :: later →
      press.Presses key → ∃ deed ∈ later, deed.Releases key := by
    intro earlier press later key split presses
    rcases earlier with _ | ⟨_, _ | ⟨_, _ | ⟨_, _ | ⟨_, _ | ⟨_, earlier⟩⟩⟩⟩⟩ <;>
      simp only [held, releases, List.cons_append, List.nil_append, List.cons.injEq] at split
    · obtain ⟨rfl, rfl⟩ := split
      have three := (Deed.presses_obey_iff.mp presses).1
      exact ⟨.obey (.setKey 3 false) 0, by simp, Deed.releases_obey_iff.mpr ⟨three, rfl⟩⟩
    · obtain ⟨_, rfl, _⟩ := split
      cases presses
    · obtain ⟨_, _, rfl, rfl⟩ := split
      have five := (Deed.presses_obey_iff.mp presses).1
      exact ⟨.obey (.setKey 5 false) 0, by simp, Deed.releases_obey_iff.mpr ⟨five, rfl⟩⟩
    · obtain ⟨_, _, _, rfl, _⟩ := split
      cases (Deed.presses_obey_iff.mp presses).2
    · obtain ⟨_, _, _, _, rfl, _⟩ := split
      cases (Deed.presses_obey_iff.mp presses).2
    · simp at split
  obtain ⟨_, facts⟩ := keys_down_until_released (.whole 600) false (.ofScript []) [0xf0, 0x0a]
    [0xf0, 0x0a] true 10 (0 : Rat) [] []
  obtain ⟨_, _, atRest⟩ := facts (held ++ releases)
  exact ⟨before, atRest allReleased⟩

/-- A reset that finds the program too large clears the keypad and ends the run, but the last key
stays, although no key has been pressed since. -/
theorem last_key_outlives_failed_reset :
    let machine := Machine.powerOn (.whole 600) false (.ofScript [])
    let begun : Scheduler Rat := ((start machine (List.replicate 3585 0) true).1.begin 0).1
    let deeds := (begun.history 10 [] [⟨0, [.setKey 5 true, .reset]⟩]).flatten
    let reached := (begun.performAll deeds).scheduler
    deeds = [.obey (.setKey 5 true) 0, .obey .reset 0] ∧
      reached.machine.keypad.isPressed 5 = false ∧ reached.lastKey = some 5 ∧
      ¬ ∀ key, reached.lastKey = some key →
        Since (fun _ deed => deed.Presses key)
          (fun deed => (∀ other, ¬ deed.Presses other) ∧ ¬ deed.Releases key ∧ ¬ deed.Resets)
          deeds := by
  intro machine begun deeds reached
  obtain ⟨done, up, last⟩ :
      deeds = [.obey (.setKey 5 true) 0, .obey .reset 0] ∧
        reached.machine.keypad.isPressed 5 = false ∧ reached.lastKey = some 5 := by
    decide +kernel
  refine ⟨done, up, last, fun claimed => ?_⟩
  have latest := claimed 5 last
  rw [show deeds = [.obey (.setKey 5 true) 0] ++ [.obey .reset 0] from done, since_concat] at latest
  rcases latest with presses | ⟨_, _, _, noReset⟩
  · cases presses
  · exact noReset rfl

end Scheduler

end ChipEight
