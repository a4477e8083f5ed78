import ChipEight.Proofs.Machine.Drawing
import ChipEight.Proofs.Scheduler.Deeds

/-!
# What the window shows

The window knows of the machine only what it was told.  `InStep` says what it may lack between two
turns: a screen that is marked as dirty, and a sound that has changed since it was last told.  Every
turn that sleeps afterwards makes up for both.
-/

namespace ChipEight

/-- What a window has been told: the last screen, and whether the sound is on. -/
structure View where
  screen : Option Screen
  sounding : Bool
  deriving DecidableEq

namespace View

/-- A window that was told nothing. -/
def initial : View :=
  ⟨none, false⟩

def receive (view : View) : Message → View
  | .beep sounding => { view with sounding := sounding }
  | .display screen => { view with screen := some screen }
  | .finished => view

def receiveAll (view : View) (messages : List Message) : View :=
  messages.foldl receive view

/-- The view that lacks nothing of a machine. -/
def ofMachine (machine : Machine) : View :=
  ⟨some machine.display.screen, decide (0 < machine.sound)⟩

theorem receiveAll_append (view : View) (earlier later : List Message) :
    view.receiveAll (earlier ++ later) = (view.receiveAll earlier).receiveAll later :=
  List.foldl_append

end View

/-- What is said about the sound, in order. -/
def beepsOf (messages : List Message) : List Bool :=
  messages.filterMap fun message =>
    match message with
    | .beep sounding => some sounding
    | _ => none

/-- The screens that are shown, in order. -/
def screensOf (messages : List Message) : List Screen :=
  messages.filterMap fun message =>
    match message with
    | .display screen => some screen
    | _ => none

theorem beepsOf_append (earlier later : List Message) :
    beepsOf (earlier ++ later) = beepsOf earlier ++ beepsOf later :=
  List.filterMap_append

theorem screensOf_append (earlier later : List Message) :
    screensOf (earlier ++ later) = screensOf earlier ++ screensOf later :=
  List.filterMap_append

theorem beepsOf_farewell (ending : Option Ending) : beepsOf (farewell ending) = [] := by
  rcases ending with _ | _ | _ | _ | _ | _ | _ <;> rfl

theorem screensOf_farewell (ending : Option Ending) : screensOf (farewell ending) = [] := by
  rcases ending with _ | _ | _ | _ | _ | _ | _ <;> rfl

/-- The values go to and fro, from a first one on. -/
def Alternates : Bool → List Bool → Prop
  | _, [] => True
  | first, value :: values => value = first ∧ Alternates (!first) values

open Machine

/-- Whatever is done to the machine, a change of the display is told of in the log. -/
theorem display_chronicle : Chronicle DisplayFollows where
  idle _ _ := Or.inl rfl
  join := DisplayFollows.join
  cycle := cycle_display
  tickTimers _ := Or.inl rfl
  setKey _ _ _ := Or.inl rfl
  endWait machine index := Or.inl (machine.endWait_display index)
  reload machine program :=
    Or.inr ⟨congrArg Display.dirty (machine.reset.load_display program), .resetting,
      List.mem_cons_self, trivial⟩

namespace Scheduler

variable {Time : Type}

/-! ## Publishing -/

/-- The window has been told of everything but a screen that is marked as dirty. -/
structure InStep (scheduler : Scheduler Time) (view : View) : Prop where
  screen : scheduler.machine.display.dirty = false →
    view.screen = some scheduler.machine.display.screen
  sounding : view.sounding = scheduler.sounding

section Publish

variable {scheduler : Scheduler Time} {view : View}

theorem InStep.follow (inStep : InStep scheduler view) {worked : Scheduler Time}
    {log : List LogEvent} (follows : scheduler.machine.DisplayFollows log worked.machine)
    (told : worked.sounding = scheduler.sounding) : InStep worked view where
  screen clean := by
    rcases follows with same | ⟨dirty, _⟩
    · rw [same] at clean ⊢
      exact inStep.screen clean
    · rw [dirty] at clean
      cases clean
  sounding := inStep.sounding.trans told.symm

/-- What is published brings a view that was in step up to the machine. -/
theorem InStep.publish (inStep : InStep scheduler view) :
    view.receiveAll scheduler.publish.2 = .ofMachine scheduler.machine := by
  have shown : view.receiveAll
      (if scheduler.machine.display.dirty then [.display scheduler.machine.display.screen]
        else []) = ⟨some scheduler.machine.display.screen, scheduler.sounding⟩ := by
    rw [← inStep.sounding]
    cases dirty : scheduler.machine.display.dirty with
    | true => rfl
    | false =>
        rw [← inStep.screen dirty]
        rfl
  simp only [Scheduler.publish, View.receiveAll_append, shown]
  split
  next same => exact congrArg (View.mk _) same.symm
  next => rfl

/-- A change of the sound is announced once, against what was announced before. -/
theorem beepsOf_publish (scheduler : Scheduler Time) :
    (beepsOf scheduler.publish.2 = [] ∧ scheduler.publish.1.sounding = scheduler.sounding) ∨
      (beepsOf scheduler.publish.2 = [!scheduler.sounding] ∧
        scheduler.publish.1.sounding = !scheduler.sounding) := by
  have silent : beepsOf
      (if scheduler.machine.display.dirty then [.display scheduler.machine.display.screen]
        else []) = [] := by
    split <;> rfl
  simp only [publish, beepsOf_append, silent, List.nil_append]
  split
  next same => exact Or.inl ⟨rfl, same⟩
  next changed =>
    have flipped := Bool.eq_not_of_ne changed
    refine Or.inr ⟨?_, flipped⟩
    rw [flipped]
    rfl

theorem screensOf_publish (scheduler : Scheduler Time) :
    screensOf scheduler.publish.2 =
      if scheduler.machine.display.dirty then [scheduler.machine.display.screen] else [] := by
  simp only [publish, screensOf_append]
  split <;> split <;> rfl

end Publish

/-! ## Turns -/

/-- What the window hears of a turn: the news of the machine that it has worked on, or nothing but
the end of the run. -/
inductive Told (scheduler : Scheduler Time) (turn : Turn Time) : Prop
  | published {worked : Scheduler Time} {closing : List Message} :
      scheduler.machine.DisplayFollows turn.log worked.machine →
      worked.sounding = scheduler.sounding → turn.scheduler = worked.publish.1 →
      closing = [] ∨ closing = [.finished] → turn.messages = worked.publish.2 ++ closing →
      Told scheduler turn
  | silent :
      ¬ (turn.ending = none ∨ turn.ending = some .programEnded) →
      turn.scheduler.sounding = scheduler.sounding →
      turn.messages = [] ∨ turn.messages = [.finished] → Told scheduler turn

namespace Told

variable {scheduler : Scheduler Time} {turn : Turn Time} {view : View}

theorem settled (told : Told scheduler turn)
    (awake : turn.ending = none ∨ turn.ending = some .programEnded) :
    turn.scheduler.machine.display.dirty = false ∧
      turn.scheduler.sounding = decide (0 < turn.scheduler.machine.sound) := by
  cases told with
  | silent asleep _ _ => exact absurd awake asleep
  | published _ _ reached _ _ =>
      rw [reached]
      exact ⟨rfl, rfl⟩

theorem shows (told : Told scheduler turn) (inStep : InStep scheduler view)
    (awake : turn.ending = none ∨ turn.ending = some .programEnded) :
    view.receiveAll turn.messages = .ofMachine turn.scheduler.machine := by
  cases told with
  | silent asleep _ _ => exact absurd awake asleep
  | published follows kept reached closes sent =>
      rw [sent, reached, View.receiveAll_append, (inStep.follow follows kept).publish]
      rcases closes with rfl | rfl <;> rfl

/-- A turn that goes on leaves the view in step for the next one. -/
theorem inStep (told : Told scheduler turn) (before : InStep scheduler view)
    (goesOn : turn.ending = none) : InStep turn.scheduler (view.receiveAll turn.messages) := by
  rw [told.shows before (Or.inl goesOn)]
  exact ⟨fun _ => rfl, (told.settled (Or.inl goesOn)).2.symm⟩

theorem beeps (told : Told scheduler turn) :
    (beepsOf turn.messages = [] ∧ turn.scheduler.sounding = scheduler.sounding) ∨
      (beepsOf turn.messages = [!scheduler.sounding] ∧
        turn.scheduler.sounding = !scheduler.sounding) := by
  cases told with
  | silent _ kept closes =>
      refine Or.inl ⟨?_, kept⟩
      rcases closes with sent | sent <;> rw [sent] <;> rfl
  | @published worked _ _ kept reached closes sent =>
      have closed : beepsOf turn.messages = beepsOf worked.publish.2 := by
        rw [sent, beepsOf_append]
        rcases closes with rfl | rfl <;> exact List.append_nil _
      rw [closed, reached, ← kept]
      exact worked.beepsOf_publish

/-- A turn sends at most one screen, and a clean screen is sent only if the log tells of drawing. -/
theorem screens (told : Told scheduler turn) :
    screensOf turn.messages = [] ∨
      (∃ screen, screensOf turn.messages = [screen]) ∧
        (scheduler.machine.display.dirty = false → ∃ event ∈ turn.log, event.TellsOfDrawing) := by
  cases told with
  | silent _ _ closes =>
      refine Or.inl ?_
      rcases closes with sent | sent <;> rw [sent] <;> rfl
  | @published worked _ follows _ _ closes sent =>
      have closed : screensOf turn.messages = screensOf worked.publish.2 := by
        rw [sent, screensOf_append]
        rcases closes with rfl | rfl <;> exact List.append_nil _
      rw [closed, screensOf_publish]
      cases dirty : worked.machine.display.dirty with
      | false => exact Or.inl rfl
      | true =>
          refine Or.inr ⟨⟨_, rfl⟩, fun clean => ?_⟩
          rcases follows with same | ⟨_, told⟩
          · rw [same, clean] at dirty
            cases dirty
          · exact told

end Told

/-! ## Runs -/

variable [Clock Time]

section Runs

variable {scheduler : Scheduler Time} {inbox : List Command} {now : Time} {turn : Turn Time}

theorem Turned.told (turned : Turned scheduler inbox now turn) : Told scheduler turn := by
  cases turned with
  | commandFailed drained _ => exact .silent (by simp [close]) drained.keeps.2.2 (Or.inr rfl)
  | quit drained _ => exact .silent (by simp [close]) drained.keeps.2.2 (Or.inr rfl)
  | goesOn drained _ caughtUp =>
      exact .published (chronicle_worked display_chronicle drained caughtUp)
        (caughtUp.keeps.2.2.trans drained.keeps.2.2) rfl (Or.inl rfl) (List.append_nil _).symm
  | programEnded drained _ caughtUp =>
      have worked := chronicle_worked display_chronicle drained caughtUp
      exact .published ((worked.join (Or.inl rfl)).join (Or.inl rfl))
        (caughtUp.keeps.2.2.trans drained.keeps.2.2) rfl (Or.inr rfl) rfl
  | exhausted drained _ caughtUp =>
      exact .silent (by simp) (caughtUp.keeps.2.2.trans drained.keeps.2.2) (Or.inl rfl)
  | @interrupted _ _ interruption _ drained _ caughtUp =>
      refine .silent ?_ (caughtUp.keeps.2.2.trans drained.keeps.2.2) (Or.inr rfl)
      cases interruption <;> simp [close, Interruption.ending]

theorem Ran.settled {run : List (Turn Time)} (ran : Ran scheduler inbox run) :
    ∀ turn ∈ run, turn.ending = none ∨ turn.ending = some .programEnded →
      turn.scheduler.machine.display.dirty = false :=
  ran.forall_mem (fun _ => True)
    (fun turned _ => ⟨fun awake => (turned.told.settled awake).1, fun _ => trivial⟩) trivial

/-- Behind every turn that goes on or ends the program the view shows the machine. -/
theorem Ran.shows {run : List (Turn Time)} (ran : Ran scheduler inbox run) {view : View}
    (inStep : InStep scheduler view) {past rest : List (Turn Time)} {turn : Turn Time}
    (parts : run = past ++ turn :: rest)
    (awake : turn.ending = none ∨ turn.ending = some .programEnded) :
    view.receiveAll (messagesOf (past ++ [turn])) = .ofMachine turn.scheduler.machine := by
  have first : messagesOf [turn] = turn.messages := List.append_nil _
  -- The turns before the one that sleeps keep the window in step, which carries the induction.
  induction ran generalizing view past with
  | unread => simp at parts
  | last turned _ =>
      cases past with
      | nil =>
          cases parts
          rw [List.nil_append, first]
          exact turned.told.shows inStep awake
      | cons earlier past => simp at parts
  | further turned goesOn _ inductionHypothesis =>
      cases past with
      | nil =>
          cases parts
          rw [List.nil_append, first]
          exact turned.told.shows inStep awake
      | cons earlier past =>
          cases parts
          have later := inductionHypothesis (turned.told.inStep inStep goesOn) rfl
          rwa [← View.receiveAll_append] at later

/-- The announcements of the sound go to and fro over a whole run. -/
theorem Ran.alternates {run : List (Turn Time)} (ran : Ran scheduler inbox run) :
    Alternates (!scheduler.sounding) (beepsOf (messagesOf run)) := by
  induction ran with
  | unread => trivial
  | last turned _ =>
      rcases turned.told.beeps with ⟨beeps, _⟩ | ⟨beeps, _⟩ <;>
        simp [messagesOf, beeps, Alternates]
  | further turned _ _ inductionHypothesis =>
      rcases turned.told.beeps with ⟨beeps, kept⟩ | ⟨beeps, flipped⟩
      · rw [kept] at inductionHypothesis
        simpa [messagesOf, beepsOf_append, beeps] using inductionHypothesis
      · rw [flipped] at inductionHypothesis
        simpa [messagesOf, beepsOf_append, beeps, Alternates] using inductionHypothesis

theorem Ran.screens {run : List (Turn Time)} (ran : Ran scheduler inbox run) :
    ∀ turn ∈ run, (screensOf turn.messages).length ≤ 1 := by
  refine ran.forall_mem (fun _ => True) (fun turned _ => ⟨?_, fun _ => trivial⟩) trivial
  rcases turned.told.screens with none | ⟨⟨screen, one⟩, _⟩
  · rw [none]
    exact Nat.zero_le 1
  · rw [one]
    exact Nat.le_refl 1

theorem Ran.redrawn {run : List (Turn Time)} (ran : Ran scheduler inbox run)
    (clean : scheduler.machine.display.dirty = false) :
    ∀ turn ∈ run, screensOf turn.messages ≠ [] → ∃ event ∈ turn.log, event.TellsOfDrawing := by
  refine ran.forall_mem (fun scheduler => scheduler.machine.display.dirty = false) ?_ clean
  intro scheduler inbox now turn turned clean
  refine ⟨fun shown => ?_, fun goesOn => (turned.told.settled (Or.inl goesOn)).1⟩
  exact (turned.told.screens.resolve_left shown).2 clean

end Runs

/-- Whenever a turn sleeps, and when the program has ended, the window shows the screen and plays
the sound of the machine.  It is told of the sound each time that it changes.  A turn shows the
screen at most once, and after the first turn only if it has been cleared or drawn on. -/
theorem window_shows_machine (scheduler : Scheduler Time)
    (dirty : scheduler.machine.display.dirty = true) (silent : scheduler.sounding = false)
    (limit : Nat) (began : Time) (inbox : List Command) (ticks : List (Tick Time)) :
    let run := (scheduler.begin began).1.turns limit inbox ticks
    (∀ past turn rest, run = past ++ turn :: rest →
        turn.ending = none ∨ turn.ending = some .programEnded →
          View.initial.receiveAll (messagesOf (past ++ [turn])) =
              ⟨some turn.scheduler.machine.display.screen,
                decide (0 < turn.scheduler.machine.sound)⟩ ∧
            turn.scheduler.machine.display.dirty = false) ∧
      Alternates true (beepsOf (messagesOf run)) ∧
      (∀ turn ∈ run, (screensOf turn.messages).length ≤ 1) ∧
      ∀ first rest, run = first :: rest → ∀ turn ∈ rest, screensOf turn.messages ≠ [] →
        ∃ event ∈ turn.log, event.TellsOfDrawing := by
  intro run
  have ran : Ran (scheduler.begin began).1 inbox run := turns_ran limit _ inbox ticks
  -- A window that was told nothing lacks a screen, but that one is marked.
  have inStep : InStep (scheduler.begin began).1 .initial :=
    ⟨fun clean => absurd (clean.symm.trans dirty) Bool.false_ne_true, silent.symm⟩
  refine ⟨fun past turn rest parts awake => ?_, ?_, ran.screens, fun first rest parts => ?_⟩
  · have member : turn ∈ run := by simp [parts]
    exact ⟨ran.shows inStep parts awake, ran.settled turn member awake⟩
  · have alternates := ran.alternates
    rwa [show (scheduler.begin began).1.sounding = false from silent] at alternates
  · rw [parts] at ran
    cases ran with
    | last _ _ => exact fun turn member => absurd member List.not_mem_nil
    | further turned goesOn later => exact later.redrawn (turned.told.settled (Or.inl goesOn)).1

/-- The machine draws a glyph and sounds for one tick of the timers, and is then reset. -/
theorem window_shows_machine_glyph :
    let program : List Byte := [0x60, 0x01, 0xF0, 0x18, 0xD0, 0x05, 0x12, 0x06]
    let machine := ((Machine.powerOn (.whole 600) true (.ofScript [])).load program).state
    let scheduler : Scheduler Rat := (start machine program true).1
    let run := (scheduler.begin 0).1.turns 10 []
      [⟨1 / 200, []⟩, ⟨1 / 100, []⟩, ⟨1 / 60, [.reset]⟩]
    scheduler.machine.display.dirty = true ∧ scheduler.sounding = false ∧
      run.map (fun turn => ((screensOf turn.messages).length, beepsOf turn.messages)) =
        [(1, [true]), (0, []), (1, [false])] ∧
      ∀ first second last, run = [first, second, last] → last.ending = none →
        View.initial.receiveAll (messagesOf [first, second, last]) =
          ⟨some last.scheduler.machine.display.screen,
            decide (0 < last.scheduler.machine.sound)⟩ := by
  intro program machine scheduler run
  have dirty : scheduler.machine.display.dirty = true := rfl
  have silent : scheduler.sounding = false := rfl
  have shows := window_shows_machine scheduler dirty silent 10 0 []
    [⟨1 / 200, []⟩, ⟨1 / 100, []⟩, ⟨1 / 60, [.reset]⟩]
  refine ⟨dirty, silent, by decide +kernel, fun first second last parts awake => ?_⟩
  exact (shows.1 [first, second] last [] parts (Or.inl awake)).1

end Scheduler

end ChipEight
