import ChipEight.Proofs.Scheduler.KeyWait
import ChipEight.Proofs.Scheduler.Obedience
import ChipEight.Proofs.Scheduler.View

/-!
# Pauses

While a scheduler is paused it still obeys commands and tells the window of changes.  As long as the
commands are key events, requests to pause and what is no command, the machine is frozen: of what
the program works on only a wait for a key can change, once, by its end, and the window is told at
most once of a screen and at most once of the sound.  One of the commands may fail, since it cannot
be reported.  It changes nothing, and the run ends there.
-/

namespace ChipEight

/-- The commands that neither resume nor end a run nor reset the machine. -/
def Command.KeepsPause : Command → Prop
  | .setKey _ _ => True
  | .setRunning running => running = false
  | .stray _ => True
  | .unwritable _ => True
  | .reset => False
  | .quit => False

def Deed.KeepsPause {Time : Type} : Deed Time → Prop
  | .obey command _ => command.KeepsPause
  | .publish => True
  | _ => False

namespace Scheduler

variable {Time : Type}

/-- Nothing has changed but the keys, the registers and the program counter, and what the window has
been told. -/
def Frozen (scheduler reached : Scheduler Time) : Prop :=
  reached =
    { scheduler with
      lastKey := reached.lastKey
      sounding := reached.sounding
      machine := { scheduler.machine with
        registers := reached.machine.registers
        pc := reached.machine.pc
        waiting := reached.machine.waiting
        keypad := reached.machine.keypad
        display := { scheduler.machine.display with dirty := reached.machine.display.dirty } } }

/-- The program is where it was, and still waits if it did. -/
structure Untouched (scheduler reached : Scheduler Time) : Prop where
  registers : reached.machine.registers = scheduler.machine.registers
  pc : reached.machine.pc = scheduler.machine.pc
  waiting : reached.machine.waiting = scheduler.machine.waiting

/-- A wait for a key has ended with a key. -/
structure Resolved (key : Key) (scheduler reached : Scheduler Time) : Prop where
  registers : reached.machine.registers =
    (scheduler.machine.setRegister scheduler.machine.waitRegister key.val).registers
  pc : reached.machine.pc = scheduler.machine.pc + 2
  waiting : reached.machine.waiting = false

section Relations

variable {scheduler middle reached : Scheduler Time}

theorem Frozen.trans (first : Frozen scheduler middle) (second : Frozen middle reached) :
    Frozen scheduler reached := by
  rw [Frozen] at first second ⊢
  rw [first] at second
  exact second

theorem Untouched.refl (scheduler : Scheduler Time) : Untouched scheduler scheduler :=
  ⟨rfl, rfl, rfl⟩

theorem Untouched.trans (first : Untouched scheduler middle) (second : Untouched middle reached) :
    Untouched scheduler reached where
  registers := second.registers.trans first.registers
  pc := second.pc.trans first.pc
  waiting := second.waiting.trans first.waiting

theorem Resolved.after {key : Key} (first : Untouched scheduler middle)
    (kept : middle.machine.waitRegister = scheduler.machine.waitRegister)
    (second : Resolved key middle reached) : Resolved key scheduler reached where
  registers := by simp only [second.registers, Machine.setRegister, first.registers, kept]
  pc := by rw [second.pc, first.pc]
  waiting := second.waiting

theorem Resolved.stays {key : Key} (first : Resolved key scheduler middle)
    (second : Untouched middle reached) : Resolved key scheduler reached where
  registers := second.registers.trans first.registers
  pc := second.pc.trans first.pc
  waiting := second.waiting.trans first.waiting

end Relations

/-! ## One deed -/

/-- A key event leaves everything frozen but the keys, and lets the program go on only if it ends a
wait. -/
theorem handleKey_paused (scheduler : Scheduler Time) (index : Int) (pressed : Bool) :
    let reached := (scheduler.handleKey index pressed).state
    Frozen scheduler reached ∧ reached.machine.display = scheduler.machine.display ∧
      (Untouched scheduler reached ∨
        scheduler.machine.waiting = true ∧
          ∃ key : Key, index = key.val ∧ pressed = true ∧ Resolved key scheduler reached) := by
  intro reached
  cases named : Key.ofIndex? index with
  | none =>
      have same : reached = scheduler := scheduler.handleKey_of_none index pressed named
      rw [same]
      exact ⟨rfl, rfl, Or.inl (.refl scheduler)⟩
  | some key =>
      obtain rfl := Key.eq_val_of_ofIndex? named
      cases pressed with
      | false =>
          have released : reached = scheduler.releaseKey key := scheduler.handleKey_release key
          rw [released]
          exact ⟨rfl, rfl, Or.inl ⟨rfl, rfl, rfl⟩⟩
      | true =>
          have press : reached = (scheduler.pressKey key).1 := scheduler.handleKey_press key
          rw [press]
          cases waiting : scheduler.machine.waiting with
          | false =>
              rw [pressKey, if_neg (by simp [waiting])]
              exact ⟨rfl, rfl, Or.inl ⟨rfl, rfl, rfl⟩⟩
          | true =>
              by_cases last : scheduler.lastKey = some key
              · rw [pressKey_repeated waiting last]
                exact ⟨rfl, rfl, Or.inl (.refl scheduler)⟩
              · rw [pressKey_fresh waiting last]
                exact ⟨rfl, rfl, Or.inr ⟨rfl, key, rfl, rfl, rfl, rfl, rfl⟩⟩

section Pause

variable [Clock Time] {scheduler : Scheduler Time}

/-- What a pause allows leaves the machine frozen, also where a command fails. -/
theorem perform_paused (paused : scheduler.running = false) {deed : Deed Time}
    (keeps : deed.KeepsPause) :
    let reached := (scheduler.perform deed).scheduler
    Frozen scheduler reached ∧
      (deed = .publish ∨ reached.machine.display = scheduler.machine.display) ∧
      (Untouched scheduler reached ∨
        scheduler.machine.waiting = true ∧
          ∃ (key : Key) (now : Time), deed = .obey (.setKey key.val true) now ∧
            Resolved key scheduler reached) := by
  intro reached
  cases deed with
  | dueCycle time | cycle period | dueTick time | tick => exact absurd keeps id
  | publish => exact ⟨rfl, Or.inl rfl, Or.inl ⟨rfl, rfl, rfl⟩⟩
  | obey command now =>
      cases command with
      | reset | quit => exact absurd keeps id
      | stray text => exact ⟨rfl, Or.inr rfl, Or.inl (.refl scheduler)⟩
      | unwritable reason => exact ⟨rfl, Or.inr rfl, Or.inl (.refl scheduler)⟩
      | setRunning running =>
          have same : reached = scheduler := by
            have still : running = scheduler.running := Eq.trans keeps paused.symm
            simp only [reached, perform, handle, setRunning, if_pos still]
          rw [same]
          exact ⟨rfl, Or.inr rfl, Or.inl (.refl scheduler)⟩
      | setKey index pressed =>
          obtain ⟨frozen, display, untouched | ⟨waiting, key, rfl, rfl, resolved⟩⟩ :=
            scheduler.handleKey_paused index pressed
          · exact ⟨frozen, Or.inr display, Or.inl untouched⟩
          · exact ⟨frozen, Or.inr display, Or.inr ⟨waiting, key, now, rfl, resolved⟩⟩

/-! ## Deeds of a pause -/

/-- A pause stays a pause, so each of its deeds finds the machine frozen and leaves it so. -/
theorem performAll_frozen (paused : scheduler.running = false) {deeds : List (Deed Time)}
    (keep : ∀ deed ∈ deeds, deed.KeepsPause) :
    Frozen scheduler (scheduler.performAll deeds).scheduler := by
  induction deeds generalizing scheduler with
  | nil => exact rfl
  | cons deed deeds inductionHypothesis =>
      obtain ⟨keeps, keepLater⟩ := List.forall_mem_cons.mp keep
      obtain ⟨frozen, _, _⟩ := perform_paused paused keeps
      have stillPaused := (congrArg Scheduler.running frozen).trans paused
      exact frozen.trans (inductionHypothesis stillPaused keepLater)

/-- The program stays where it is through all the deeds. -/
def StaysUntouched (scheduler : Scheduler Time) (deeds : List (Deed Time)) : Prop :=
  ∀ before, before <+: deeds → Untouched scheduler (scheduler.performAll before).scheduler

/-- One of the deeds gives the program the key for which it waits.  Before it the program stays
where it is, and after it where it then stands. -/
def ResolvedOnce (scheduler : Scheduler Time) (deeds : List (Deed Time)) : Prop :=
  ∃ (earlier : List (Deed Time)) (key : Key) (now : Time) (later : List (Deed Time)),
    deeds = earlier ++ .obey (.setKey key.val true) now :: later ∧
      StaysUntouched scheduler earlier ∧
      ∀ after, after <+: later → Resolved key scheduler
        (scheduler.performAll (earlier ++ .obey (.setKey key.val true) now :: after)).scheduler

theorem staysUntouched_nil (scheduler : Scheduler Time) : StaysUntouched scheduler [] := by
  intro before first
  rw [List.prefix_nil.mp first]
  exact .refl scheduler

theorem StaysUntouched.cons {deed : Deed Time} {deeds : List (Deed Time)}
    (first : Untouched scheduler (scheduler.perform deed).scheduler)
    (rest : StaysUntouched (scheduler.perform deed).scheduler deeds) :
    StaysUntouched scheduler (deed :: deeds) := by
  intro before initial
  rcases List.prefix_cons_iff.mp initial with rfl | ⟨later, rfl, inner⟩
  · exact .refl scheduler
  · exact first.trans (rest later inner)

/-- At most one deed of a pause gives the program a key. -/
theorem program_untouched_or_resolved (paused : scheduler.running = false)
    {deeds : List (Deed Time)} (keep : ∀ deed ∈ deeds, deed.KeepsPause) :
    StaysUntouched scheduler deeds ∨
      scheduler.machine.waiting = true ∧ ResolvedOnce scheduler deeds := by
  induction deeds generalizing scheduler with
  | nil => exact Or.inl (staysUntouched_nil scheduler)
  | cons deed deeds inductionHypothesis =>
      obtain ⟨keeps, keepLater⟩ := List.forall_mem_cons.mp keep
      obtain ⟨frozen, _, changed⟩ := perform_paused paused keeps
      have stillPaused := (congrArg Scheduler.running frozen).trans paused
      have rest := inductionHypothesis stillPaused keepLater
      rcases changed with untouched | ⟨waiting, key, now, rfl, resolved⟩
      · rcases rest with stays | ⟨stillWaiting, earlier, key, now, later, split, before, after⟩
        · exact Or.inl (stays.cons untouched)
        · have waiting := untouched.waiting.symm.trans stillWaiting
          have loads := congrArg (fun reached => reached.machine.waitRegister) frozen
          refine Or.inr ⟨waiting, deed :: earlier, key, now, later, ?_, before.cons untouched, ?_⟩
          · rw [split, List.cons_append]
          · exact fun behind inner => (after behind inner).after untouched loads
      · -- A program that has gone on waits no more, so no other key can end its wait.
        rcases rest with stays | ⟨stillWaiting, _⟩
        · refine Or.inr ⟨waiting, [], key, now, deeds, rfl, staysUntouched_nil scheduler, ?_⟩
          exact fun behind inner => resolved.stays (stays behind inner)
        · rw [resolved.waiting] at stillWaiting
          cases stillWaiting

/-- In a pause the window is told of a screen only if it has not been shown, and of the sound only
if it was told otherwise. -/
theorem messages_paused (paused : scheduler.running = false) {deeds : List (Deed Time)}
    (keep : ∀ deed ∈ deeds, deed.KeepsPause) :
    (screensOf (scheduler.performAll deeds).messages).length ≤
        (if scheduler.machine.display.dirty then 1 else 0) ∧
      (beepsOf (scheduler.performAll deeds).messages).length ≤
        (if scheduler.sounding = decide (0 < scheduler.machine.sound) then 0 else 1) := by
  induction deeds generalizing scheduler with
  | nil => exact ⟨Nat.zero_le _, Nat.zero_le _⟩
  | cons deed deeds inductionHypothesis =>
      obtain ⟨keeps, keepLater⟩ := List.forall_mem_cons.mp keep
      obtain ⟨frozen, display, _⟩ := perform_paused paused keeps
      have stillPaused := (congrArg Scheduler.running frozen).trans paused
      obtain ⟨screens, beeps⟩ := inductionHypothesis stillPaused keepLater
      simp only [performAll, screensOf_append, beepsOf_append, List.length_append]
      cases deed with
      | dueCycle time | cycle period | dueTick time | tick => exact absurd keeps id
      | publish =>
          have noScreen : (screensOf (scheduler.publish.1.performAll deeds).messages).length ≤ 0 :=
            screens
          have noBeep : (beepsOf (scheduler.publish.1.performAll deeds).messages).length ≤ 0 :=
            beeps.trans (Nat.le_of_eq (if_pos rfl))
          simp only [perform, Nat.le_zero.mp noScreen, Nat.le_zero.mp noBeep, Nat.add_zero]
          constructor
          · rw [screensOf_publish]
            split <;> exact Nat.le_refl _
          · rcases scheduler.beepsOf_publish with ⟨none, _⟩ | ⟨one, flipped⟩
            · rw [none]
              exact Nat.zero_le _
            · have changed : scheduler.sounding ≠ decide (0 < scheduler.machine.sound) := by
                intro same
                exact absurd (same.trans flipped) (by simp)
              rw [one, if_neg changed]
              exact Nat.le_refl _
      | obey command now =>
          have sound := congrArg (fun reached => reached.machine.sound) frozen
          have sounding := (scheduler.handle_keeps command now).2.2
          have same := display.resolve_left fun published => by cases published
          simp only [perform] at sound same screens beeps ⊢
          simp only [same] at screens
          simp only [sounding, sound] at beeps
          simpa [screensOf, beepsOf] using ⟨screens, beeps⟩

/-! ## Turns of a pause -/

theorem workDeeds_paused (limit : Nat) (paused : scheduler.running = false) (now : Time) :
    scheduler.workDeeds limit now = [.publish] := by
  simp [workDeeds, catchUpDeeds, catchUp, paused]

omit [Clock Time] in
theorem keepsPause_obeying {inbox : List Command} (keep : ∀ command ∈ inbox, command.KeepsPause)
    (now : Time) : ∀ deed ∈ obeying inbox now, deed.KeepsPause := by
  intro deed member
  obtain ⟨command, among, rfl⟩ := List.mem_map.mp member
  exact keep command among

/-- A turn of a pause does what keeps the pause, and is the last one only if one of its commands
fails. -/
theorem turn_paused (limit : Nat) (paused : scheduler.running = false)
    (quit : scheduler.quit = false) {inbox : List Command}
    (keep : ∀ command ∈ inbox, command.KeepsPause) (now : Time) :
    (∀ deed ∈ scheduler.turnDeeds limit inbox now, deed.KeepsPause) ∧
      ∀ ending, (scheduler.turn limit inbox now).ending = some ending →
        ∃ command ∈ inbox, ∃ error,
          command.failure? scheduler.program scheduler.digitLimit = some error ∧
          ending = .commandFailed error := by
  have drained := drain_drained now inbox.length scheduler inbox
  obtain ⟨split, performed⟩ := scheduler.drain_deeds inbox now
  have keepObeyed : ∀ command ∈ scheduler.obeyed inbox now, command.KeepsPause :=
    fun command member => keep command (split ▸ List.mem_append_left _ member)
  have frozen := performAll_frozen paused (keepsPause_obeying keepObeyed now)
  rw [performed] at frozen
  have stillPaused := (congrArg Scheduler.running frozen).trans paused
  have stillAwake := (congrArg Scheduler.quit frozen).trans quit
  simp only [turn, turnDeeds]
  generalize scheduler.drain now inbox.length inbox = result at drained stillPaused stillAwake ⊢
  simp only at stillPaused stillAwake
  cases answer : result.answer with
  | error error =>
      obtain ⟨command, member, failure⟩ := drained.of_error answer
      refine ⟨List.forall_mem_append.mpr
        ⟨keepsPause_obeying keepObeyed now, fun _ member => absurd member List.not_mem_nil⟩, ?_⟩
      rintro _ ⟨rfl⟩
      exact ⟨command, member, error, failure, rfl⟩
  | ok _ =>
      simp only [stillAwake, workDeeds_paused limit stillPaused, catchUp, stillPaused,
        Bool.false_eq_true, if_false]
      refine ⟨List.forall_mem_append.mpr
        ⟨keepsPause_obeying keepObeyed now, List.forall_mem_singleton.mpr trivial⟩, ?_⟩
      intro _ ended
      cases ended

/-! ## Runs of a pause -/

theorem run_paused (limit : Nat) (paused : scheduler.running = false)
    (quit : scheduler.quit = false) {inbox : List Command} {ticks : List (Tick Time)}
    (keepInbox : ∀ command ∈ inbox, command.KeepsPause)
    (keep : ∀ tick ∈ ticks, ∀ command ∈ tick.arrivals, command.KeepsPause) :
    (∀ deed ∈ (scheduler.history limit inbox ticks).flatten, deed.KeepsPause) ∧
      ∀ turn ∈ scheduler.turns limit inbox ticks, ∀ ending, turn.ending = some ending →
        ∃ command ∈ inbox ++ ticks.flatMap Tick.arrivals, ∃ error,
          command.failure? scheduler.program scheduler.digitLimit = some error ∧
          ending = .commandFailed error := by
  induction ticks generalizing scheduler inbox with
  | nil => constructor <;> exact fun _ member => absurd member List.not_mem_nil
  | cons tick ticks inductionHypothesis =>
      obtain ⟨keepFirst, keepLater⟩ := List.forall_mem_cons.mp keep
      have keepAll : ∀ command ∈ inbox ++ tick.arrivals, command.KeepsPause :=
        List.forall_mem_append.mpr ⟨keepInbox, keepFirst⟩
      obtain ⟨keepTurn, ends⟩ := turn_paused limit paused quit keepAll tick.now
      obtain ⟨reached, _, _, _⟩ := scheduler.turn_deeds limit (inbox ++ tick.arrivals) tick.now
      have turned := scheduler.turn_turned limit (inbox ++ tick.arrivals) tick.now
      have frozen := performAll_frozen paused keepTurn
      rw [← reached] at frozen
      rw [turns_cons, history, List.flatMap_cons, ← List.append_assoc, List.flatten_cons]
      generalize scheduler.turn limit (inbox ++ tick.arrivals) tick.now = turn
        at ends frozen turned ⊢
      have endsFirst : ∀ ending, turn.ending = some ending →
          ∃ command ∈ inbox ++ tick.arrivals ++ ticks.flatMap Tick.arrivals, ∃ error,
            command.failure? scheduler.program scheduler.digitLimit = some error ∧
            ending = .commandFailed error := by
        intro ending ended
        obtain ⟨command, member, failed⟩ := ends ending ended
        exact ⟨command, List.mem_append_left _ member, failed⟩
      dsimp only
      cases goesOn : turn.ending with
      | some reason =>
          exact ⟨List.forall_mem_append.mpr
              ⟨keepTurn, fun _ member => absurd member List.not_mem_nil⟩,
            List.forall_mem_singleton.mpr endsFirst⟩
      | none =>
          obtain ⟨keepDeeds, endings⟩ :=
            inductionHypothesis ((congrArg Scheduler.running frozen).trans paused)
              ((congrArg Scheduler.quit frozen).trans quit)
              (fun command member => keepAll command (turned.left_suffix.subset member)) keepLater
          refine ⟨List.forall_mem_append.mpr ⟨keepTurn, keepDeeds⟩,
            List.forall_mem_cons.mpr ⟨endsFirst, fun later member ending ended => ?_⟩⟩
          obtain ⟨command, sent, failed⟩ := endings later member ending ended
          rw [turned.keeps.1, turned.keeps.2] at failed
          refine ⟨command, ?_, failed⟩
          rcases List.mem_append.mp sent with left | arrived
          · exact List.mem_append_left _ (turned.left_suffix.subset left)
          · exact List.mem_append_right _ arrived

end Pause

/-- A paused machine is frozen.  Whatever key events, requests to pause and strange objects come,
nothing of the machine changes but its keys and the mark of a screen that has been shown.  If the
program waits for a key, one of the events may give it the key, once; it then stands behind the
instruction that waits.  The window is told at most once of a screen and at most once of the sound.
The run goes on, unless one of the commands that were sent cannot be reported and fails. -/
theorem pause_freezes_machine [Clock Time] (limit : Nat) (scheduler : Scheduler Time)
    (paused : scheduler.running = false) (quit : scheduler.quit = false) (inbox : List Command)
    (ticks : List (Tick Time)) (keepInbox : ∀ command ∈ inbox, command.KeepsPause)
    (keep : ∀ tick ∈ ticks, ∀ command ∈ tick.arrivals, command.KeepsPause) :
    let run := scheduler.turns limit inbox ticks
    let history := scheduler.history limit inbox ticks
    let sent := inbox ++ ticks.flatMap Tick.arrivals
    let failure := Command.failure? scheduler.program scheduler.digitLimit
    ((∀ command ∈ sent, failure command = none) →
      run.length = ticks.length ∧ ∀ turn ∈ run, turn.ending = none) ∧
    history.length = run.length ∧
    (∀ (index : Nat) (turn : Turn Time), run[index]? = some turn →
      (∀ ending, turn.ending = some ending →
        ∃ command ∈ sent, ∃ error, failure command = some error ∧
          ending = .commandFailed error) ∧
        (scheduler.performAll (history.take (index + 1)).flatten).scheduler = turn.scheduler) ∧
    (∀ deeds, deeds <+: history.flatten →
      Frozen scheduler (scheduler.performAll deeds).scheduler) ∧
    (StaysUntouched scheduler history.flatten ∨
      scheduler.machine.waiting = true ∧ ResolvedOnce scheduler history.flatten) ∧
    (screensOf (messagesOf run)).length ≤ 1 ∧ (beepsOf (messagesOf run)).length ≤ 1 := by
  intro run history sent failure
  obtain ⟨keepDeeds, endings⟩ := run_paused limit paused quit keepInbox keep
  obtain ⟨screens, beeps⟩ := messages_paused paused keepDeeds
  have told : messagesOf run =
      (scheduler.performAll history.flatten).messages ++ farewell (endingOf run) :=
    messagesOf_turns
  rw [told, screensOf_append, beepsOf_append, screensOf_farewell, beepsOf_farewell,
    List.append_nil, List.append_nil]
  refine ⟨fun obeyed => ?_, length_history, fun index turn met => ?_, fun deeds first => ?_,
    program_untouched_or_resolved paused keepDeeds, screens.trans ?_, beeps.trans ?_⟩
  · have goesOn : ∀ turn ∈ run, turn.ending = none := by
      intro turn met
      by_contra ended
      obtain ⟨ending, ended⟩ := Option.ne_none_iff_exists'.mp ended
      obtain ⟨command, among, error, failed, _⟩ := endings turn met ending ended
      cases (obeyed command among).symm.trans failed
    exact ⟨length_turns goesOn, goesOn⟩
  · exact ⟨endings turn (List.mem_of_getElem? met), (performAll_history met).1⟩
  · exact performAll_frozen paused fun deed member => keepDeeds deed (first.subset member)
  · split <;> decide
  · split <;> decide

/-- A key ends a wait in a long pause, and the next one is only kept on the keypad. -/
theorem pause_freezes_machine_waiting :
    let machine := ((Machine.powerOn (.whole 600) false (.ofScript [])).execute 0xF20A).state
    let scheduler : Scheduler Rat := (start { machine with sound := 3 } [0xF2, 0x0A] false).1
    let inbox : List Command := [.setKey 99 true]
    let ticks : List (Tick Rat) := [⟨1, [.setRunning false, .setKey 4 false]⟩,
      ⟨100, [.setKey 5 true, .stray "Finished()"]⟩, ⟨100, [.setKey 7 true]⟩]
    let run := scheduler.turns 10 inbox ticks
    let history := scheduler.history 10 inbox ticks
    let reached := (scheduler.performAll history.flatten).scheduler
    scheduler.running = false ∧ scheduler.quit = false ∧
      (∀ command ∈ inbox, command.KeepsPause) ∧
      (∀ tick ∈ ticks, ∀ command ∈ tick.arrivals, command.KeepsPause) ∧
      run.length = 3 ∧ Frozen scheduler reached ∧ reached.machine.sound = 3 ∧
      reached.machine.register 2 = 5 ∧ reached.machine.pc = 0x202 ∧
      (screensOf (messagesOf run)).length ≤ 1 ∧ (beepsOf (messagesOf run)).length ≤ 1 := by
  intro machine scheduler inbox ticks run history reached
  have paused : scheduler.running = false := rfl
  have quit : scheduler.quit = false := rfl
  have keepInbox : ∀ command ∈ inbox, command.KeepsPause := List.forall_mem_singleton.mpr trivial
  have keep : ∀ tick ∈ ticks, ∀ command ∈ tick.arrivals, command.KeepsPause := by
    simp [ticks, Command.KeepsPause]
  obtain ⟨goesOn, _, _, frozen, changed, screens, beeps⟩ :=
    pause_freezes_machine 10 scheduler paused quit inbox ticks keepInbox keep
  obtain ⟨length, _⟩ := goesOn (by decide)
  have whole : Frozen scheduler reached := frozen history.flatten (List.prefix_refl _)
  have sound : reached.machine.sound = scheduler.machine.sound :=
    congrArg (fun reached => reached.machine.sound) whole
  have three : scheduler.machine.sound = 3 := rfl
  have loaded : reached.machine.register 2 = 5 ∧ reached.machine.pc = 0x202 := by decide +kernel
  exact ⟨paused, quit, keepInbox, keep, length, whole, sound.trans three, loaded.1, loaded.2,
    screens, beeps⟩

end Scheduler

end ChipEight
