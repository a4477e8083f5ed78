import ChipEight.Proofs.Scheduler.Deeds
import ChipEight.Proofs.Scheduler.Finish
import ChipEight.Proofs.Scheduler.View
import ChipEight.Proofs.Window.Picture
import ChipEight.Window.Session

/-!
# What the window renders

The window finds the messages of a run in polls, one in every frame, and it depends on the speed of
both sides how the messages are cut into polls.  `watch` is the loop of frames over the polls.
Since a run sends its last message once and sends nothing behind it, the window renders the same
whatever the cuts are.  A session is such a loop: its polls put together are what its run sent.
`Shows` says what the calls for some messages are, kind by kind, without the function that makes
them.
-/

namespace ChipEight

/-! ## The loop of frames -/

/-- What is asked of the device in a frame that finds some messages. -/
def frameCalls (scale : Int) (audible : Bool) (poll : List Message) : List DeviceCall :=
  poll.flatMap (Message.present scale audible) ++ [.frame frameRate]

/-- What is asked of the device in the frames up to the one that finds the last message, and whether
there is such a frame. -/
def watch (scale : Int) (audible : Bool) : List (List Message) → List DeviceCall × Bool
  | [] => ([], false)
  | poll :: polls =>
      if poll.contains .finished then
        (frameCalls scale audible poll, true)
      else
        let (later, finished) := watch scale audible polls
        (frameCalls scale audible poll ++ later, finished)

/-- The sound that is switched on and off, in order. -/
def soundsOf (calls : List DeviceCall) : List Bool :=
  calls.filterMap fun call =>
    match call with
    | .play _ => some true
    | .silence => some false
    | _ => none

section Watch

variable {scale : Int} {audible : Bool} {polls earlier idle : List (List Message)}
  {last : List Message}

theorem watch_unfinished (unfinished : .finished ∉ polls.flatten) :
    watch scale audible polls = (polls.flatMap (frameCalls scale audible), false) := by
  induction polls with
  | nil => rfl
  | cons poll polls inductionHypothesis =>
      obtain ⟨here, later⟩ : .finished ∉ poll ∧ .finished ∉ polls.flatten := by
        simpa [not_or] using unfinished
      have goesOn : ¬ poll.contains .finished = true := by simpa using here
      rw [watch, if_neg goesOn, inductionHypothesis later]
      rfl

/-- The frames behind the one that finds the last message do not come. -/
theorem watch_finished (unfinished : .finished ∉ earlier.flatten) (finished : .finished ∈ last) :
    watch scale audible (earlier ++ last :: idle) =
      ((earlier ++ [last]).flatMap (frameCalls scale audible), true) := by
  induction earlier with
  | nil =>
      have ends : last.contains .finished = true := by simpa using finished
      rw [List.nil_append, watch, if_pos ends]
      simp
  | cons poll earlier inductionHypothesis =>
      obtain ⟨here, later⟩ : .finished ∉ poll ∧ .finished ∉ earlier.flatten := by
        simpa [not_or] using unfinished
      have goesOn : ¬ poll.contains .finished = true := by simpa using here
      rw [List.cons_append, watch, if_neg goesOn, inductionHypothesis later]
      rfl

/-- Some poll is the first that finds the last message. -/
theorem exists_first_poll (found : .finished ∈ polls.flatten) :
    ∃ earlier last idle, polls = earlier ++ last :: idle ∧ .finished ∉ earlier.flatten ∧
      .finished ∈ last := by
  induction polls with
  | nil => cases found
  | cons poll polls inductionHypothesis =>
      by_cases here : .finished ∈ poll
      · exact ⟨[], poll, polls, rfl, List.not_mem_nil, here⟩
      · have later : .finished ∈ polls.flatten :=
          (List.mem_append.mp found).resolve_left here
        obtain ⟨earlier, last, idle, split, unfinished, finished⟩ := inductionHypothesis later
        refine ⟨poll :: earlier, last, idle, by rw [split]; rfl, ?_, finished⟩
        rw [List.flatten_cons, List.mem_append, not_or]
        exact ⟨here, unfinished⟩

end Watch

/-! ## What a frame asks for -/

section Frame

variable {scale : Int} {audible : Bool}

/-- A message is shown without a wait for the next frame and without an end. -/
theorem present_calls {message : Message} {call : DeviceCall}
    (asked : call ∈ message.present scale audible) : call ≠ .frame frameRate ∧ call ≠ .stop := by
  cases message with
  | finished => cases asked
  | beep sounding =>
      cases audible <;> cases sounding <;> simp_all [Message.present]
  | display screen =>
      simp only [Message.present, Screen.paint, List.cons_append, List.mem_cons, List.mem_append,
        List.mem_map] at asked
      rcases asked with rfl | ⟨pixel, _, rfl⟩ | rfl | never
      · simp
      · simp
      · simp
      · cases never

theorem soundsOf_append (calls later : List DeviceCall) :
    soundsOf (calls ++ later) = soundsOf calls ++ soundsOf later :=
  List.filterMap_append

theorem soundsOf_present (message : Message) :
    soundsOf (message.present scale audible) = if audible then beepsOf [message] else [] := by
  cases message with
  | finished => cases audible <;> rfl
  | beep sounding => cases audible <;> cases sounding <;> rfl
  | display screen =>
      have silent : soundsOf (screen.paint scale) = [] := by
        simp [soundsOf, Screen.paint, List.filterMap_map]
      rw [Message.present, silent]
      cases audible <;> rfl

theorem soundsOf_flatMap_present (messages : List Message) :
    soundsOf (messages.flatMap (Message.present scale audible)) =
      if audible then beepsOf messages else [] := by
  induction messages with
  | nil => cases audible <;> rfl
  | cons message messages inductionHypothesis =>
      have split : beepsOf (message :: messages) = beepsOf [message] ++ beepsOf messages :=
        beepsOf_append [message] messages
      rw [List.flatMap_cons, soundsOf_append, soundsOf_present, inductionHypothesis, split]
      cases audible <;> rfl

theorem soundsOf_frames (polls : List (List Message)) :
    soundsOf (polls.flatMap (frameCalls scale audible)) =
      if audible then beepsOf polls.flatten else [] := by
  induction polls with
  | nil => cases audible <;> rfl
  | cons poll polls inductionHypothesis =>
      rw [List.flatMap_cons, soundsOf_append, inductionHypothesis, frameCalls, soundsOf_append,
        soundsOf_flatMap_present, List.flatten_cons, beepsOf_append]
      cases audible with
      | true => simp [soundsOf]
      | false => rfl

theorem shown_frames (polls : List (List Message)) :
    (polls.flatMap (frameCalls scale audible)).filter (· ≠ .frame frameRate) =
      polls.flatten.flatMap (Message.present scale audible) := by
  induction polls with
  | nil => rfl
  | cons poll polls inductionHypothesis =>
      have kept : (poll.flatMap (Message.present scale audible)).filter (· ≠ .frame frameRate) =
          poll.flatMap (Message.present scale audible) := by
        refine List.filter_eq_self.mpr fun call asked => ?_
        obtain ⟨message, _, presents⟩ := List.mem_flatMap.mp asked
        simpa using (present_calls presents).1
      rw [List.flatMap_cons, List.filter_append, inductionHypothesis, frameCalls,
        List.filter_append, kept, List.flatten_cons, List.flatMap_append]
      simp

theorem stop_notMem_frames (polls : List (List Message)) :
    .stop ∉ polls.flatMap (frameCalls scale audible) := by
  intro asked
  obtain ⟨poll, _, inFrame⟩ := List.mem_flatMap.mp asked
  rcases List.mem_append.mp inFrame with shown | waits
  · obtain ⟨message, _, presents⟩ := List.mem_flatMap.mp shown
    exact (present_calls presents).2 rfl
  · cases List.mem_singleton.mp waits

end Frame

/-! ## The calls that are due -/

/-- The calls that show some messages, one message after the other: for a screen the background, a
square for each lit pixel and the order to show them, and for a change of the sound, where there is
a sound, one order to play without end or to be silent. -/
inductive Shows (scale : Int) (audible : Bool) : List Message → List DeviceCall → Prop where
  | nothing : Shows scale audible [] []
  | picture (screen : Screen) {messages : List Message} {calls : List DeviceCall}
      (later : Shows scale audible messages calls) :
      Shows scale audible (.display screen :: messages)
        (.fill darkColour :: (screen.squares scale).map Rectangle.painted ++ .flip :: calls)
  | plays {messages : List Message} {calls : List DeviceCall} (heard : audible = true)
      (later : Shows scale audible messages calls) :
      Shows scale audible (.beep true :: messages) (.play (-1) :: calls)
  | silenced {messages : List Message} {calls : List DeviceCall} (heard : audible = true)
      (later : Shows scale audible messages calls) :
      Shows scale audible (.beep false :: messages) (.silence :: calls)
  | unheard (sounding : Bool) {messages : List Message} {calls : List DeviceCall}
      (mute : audible = false) (later : Shows scale audible messages calls) :
      Shows scale audible (.beep sounding :: messages) calls
  | finished {messages : List Message} {calls : List DeviceCall}
      (later : Shows scale audible messages calls) :
      Shows scale audible (.finished :: messages) calls

theorem shows_present {scale : Int} {audible : Bool} (messages : List Message) :
    Shows scale audible messages (messages.flatMap (Message.present scale audible)) := by
  induction messages with
  | nil => exact .nothing
  | cons message messages inductionHypothesis =>
      rw [List.flatMap_cons]
      cases message with
      | finished => exact .finished inductionHypothesis
      | display screen =>
          rw [Message.present, Screen.paint_eq, List.append_assoc]
          exact .picture screen inductionHypothesis
      | beep sounding =>
          cases audible with
          | false => exact .unheard sounding rfl inductionHypothesis
          | true =>
              cases sounding with
              | true => exact .plays rfl inductionHypothesis
              | false => exact .silenced rfl inductionHypothesis

/-! ## Any cuts -/

theorem Alternates.of_prefix {first : Bool} {values later : List Bool}
    (alternates : Alternates first (values ++ later)) : Alternates first values := by
  induction values generalizing first with
  | nil => trivial
  | cons value values inductionHypothesis =>
      exact ⟨alternates.1, inductionHypothesis alternates.2⟩

/-- The messages end with the only announcement that they end, or have none. -/
def Closed (messages : List Message) : Prop :=
  .finished ∉ messages ∨ ∃ earlier, messages = earlier ++ [.finished] ∧ .finished ∉ earlier

/-- What has found the last message has found all. -/
theorem Closed.eq_of_prefix {found messages : List Message} (closed : Closed messages)
    (first : found <+: messages) (finished : .finished ∈ found) : found = messages := by
  rcases closed with absent | ⟨earlier, rfl, absent⟩
  · exact absurd (first.subset finished) absent
  · rcases List.prefix_concat_iff.mp first with whole | before
    · exact whole
    · exact absurd (before.subset finished) absent

/-- What a window that finds messages in polls renders of all that were sent. -/
structure Rendered (scale : Int) (audible : Bool) (sent : List Message)
    (polls : List (List Message)) : Prop where
  calls : Shows scale audible polls.flatten
    ((watch scale audible polls).1.filter (· ≠ .frame frameRate))
  sounds : Alternates true (soundsOf (watch scale audible polls).1)
  goesOn : .stop ∉ (watch scale audible polls).1
  finds : (watch scale audible polls).2 = true ↔ .finished ∈ polls.flatten
  ends : .finished ∈ polls.flatten → polls.flatten = sent ∧
    ∃ earlier last idle, polls = earlier ++ last :: idle ∧ .finished ∉ earlier.flatten ∧
      .finished ∈ last ∧ idle.flatten = [] ∧
      (watch scale audible polls).1 = (earlier ++ [last]).flatMap (frameCalls scale audible)

theorem rendered_of_prefix {scale : Int} {audible : Bool} {sent : List Message}
    {polls : List (List Message)} (closed : Closed sent)
    (alternates : Alternates true (beepsOf sent)) (first : polls.flatten <+: sent) :
    Rendered scale audible sent polls := by
  have audibleSounds : ∀ heard : List (List Message), heard.flatten <+: sent →
      Alternates true (soundsOf (heard.flatMap (frameCalls scale audible))) := by
    rintro heard ⟨rest, split⟩
    rw [soundsOf_frames]
    cases audible with
    | false => trivial
    | true =>
        rw [← split, beepsOf_append] at alternates
        exact alternates.of_prefix
  by_cases finished : .finished ∈ polls.flatten
  · obtain ⟨earlier, last, idle, split, unfinished, ends⟩ := exists_first_poll finished
    have whole : polls.flatten = sent := closed.eq_of_prefix first finished
    have cut : polls.flatten = (earlier ++ [last]).flatten ++ idle.flatten := by
      rw [split]
      simp
    have read : (earlier ++ [last]).flatten <+: sent := ⟨idle.flatten, by rw [← cut, whole]⟩
    have all : (earlier ++ [last]).flatten = sent :=
      closed.eq_of_prefix read (by simp [ends])
    have rest : idle.flatten = [] := by
      rw [whole, all] at cut
      simpa using cut
    have watched : watch scale audible polls =
        ((earlier ++ [last]).flatMap (frameCalls scale audible), true) := by
      rw [split]
      exact watch_finished unfinished ends
    have same : polls.flatten = (earlier ++ [last]).flatten := whole.trans all.symm
    constructor
    · rw [watched, shown_frames, same]
      exact shows_present _
    · rw [watched]
      exact audibleSounds _ read
    · rw [watched]
      exact stop_notMem_frames _
    · rw [watched]
      exact iff_of_true rfl finished
    · exact fun _ => ⟨whole, earlier, last, idle, split, unfinished, ends, rest, by rw [watched]⟩
  · have watched : watch scale audible polls = _ := watch_unfinished finished
    constructor
    · rw [watched, shown_frames]
      exact shows_present _
    · rw [watched]
      exact audibleSounds _ first
    · rw [watched]
      exact stop_notMem_frames _
    · rw [watched]
      exact iff_of_false Bool.false_ne_true finished
    · exact fun found => absurd found finished

/-! ## What a run sends -/

namespace Scheduler

variable {Time : Type} [Clock Time] {scheduler : Scheduler Time} {inbox : List Command}

theorem Turned.closed {now : Time} {turn : Turn Time} (turned : Turned scheduler inbox now turn) :
    Closed turn.messages := by
  cases turned with
  | goesOn _ _ _ => exact Or.inl (finished_not_mem_publish _)
  | exhausted _ _ _ => exact Or.inl List.not_mem_nil
  | programEnded _ _ _ => exact Or.inr ⟨_, rfl, finished_not_mem_publish _⟩
  | commandFailed _ _ | quit _ _ | interrupted _ _ _ => exact Or.inr ⟨[], rfl, List.not_mem_nil⟩

theorem Ran.closed {run : List (Turn Time)} (ran : Ran scheduler inbox run) :
    Closed (messagesOf run) := by
  induction ran with
  | unread => exact Or.inl List.not_mem_nil
  | last turned _ =>
      have closed := turned.closed
      simpa [messagesOf] using closed
  | @further _ _ _ _ turn rest turned goesOn _ inductionHypothesis =>
      have unfinished := turned.unfinished goesOn
      have split : messagesOf (turn :: rest) = turn.messages ++ messagesOf rest := rfl
      rw [split]
      rcases inductionHypothesis with absent | ⟨earlier, sent, absent⟩
      · exact Or.inl (by simp [unfinished, absent])
      · refine Or.inr ⟨turn.messages ++ earlier, by rw [sent, List.append_assoc], ?_⟩
        simp [unfinished, absent]

/-- A run over some ticks and then over others. -/
theorem turns_append (limit : Nat) (scheduler : Scheduler Time) (inbox : List Command)
    (ticks later : List (Tick Time)) :
    scheduler.turns limit inbox (ticks ++ later) =
      match (scheduler.turns limit inbox ticks).getLast? with
      | none => scheduler.turns limit inbox later
      | some last =>
          scheduler.turns limit inbox ticks ++
            if last.ending.isSome then [] else last.scheduler.turns limit last.inbox later := by
  induction ticks generalizing scheduler inbox with
  | nil => rfl
  | cons tick ticks inductionHypothesis =>
      rw [List.cons_append, turns_cons, turns_cons]
      generalize scheduler.turn limit (inbox ++ tick.arrivals) tick.now = turn
      dsimp only
      cases goesOn : turn.ending with
      | some ending => simp [goesOn]
      | none =>
          dsimp only
          rw [inductionHypothesis, List.getLast?_cons]
          cases last : (turn.scheduler.turns limit turn.inbox ticks).getLast? with
          | none => simp [List.getLast?_eq_none_iff.mp last, goesOn]
          | some last => rfl

end Scheduler

/-! ## Sessions -/

/-- Ticks before the first of which some commands arrive. -/
def arriving {Time : Type} (commands : List Command) : List (Tick Time) → List (Tick Time)
  | [] => []
  | tick :: ticks => { tick with arrivals := commands ++ tick.arrivals } :: ticks

/-- The ticks at which the scheduler finds the clock. -/
def ticksAt {Time : Type} (readings : List Time) : List (Tick Time) :=
  readings.map fun now => ⟨now, []⟩

/-- What happens between the turns of the scheduler in some frames: the commands of a frame arrive
before the first turn behind it. -/
def Frame.ticks {Time : Type} (layout : KeyboardLayout) : Bool → List (Frame Time) →
    List (Tick Time)
  | _, [] => []
  | running, next :: later =>
      let (asked, commands) := WindowEvent.allCommands layout running next.events
      arriving commands (ticksAt next.readings ++ ticks layout asked later)

variable {Time : Type} [Clock Time]

theorem Scheduler.turns_arriving (limit : Nat) (scheduler : Scheduler Time)
    (inbox commands : List Command) (ticks : List (Tick Time)) :
    scheduler.turns limit inbox (arriving commands ticks) =
      scheduler.turns limit (inbox ++ commands) ticks := by
  cases ticks with
  | nil => rfl
  | cons tick ticks => rw [arriving, turns_cons, turns_cons, List.append_assoc]

namespace Session

/-- The messages that the window has still to find, if the scheduler goes on over some ticks. -/
def awaited (limit : Nat) (session : Session Time) (ticks : List (Tick Time)) : List Message :=
  session.unread ++
    if session.ended then [] else messagesOf (session.scheduler.turns limit session.inbox ticks)

/-- The polls in which the window finds messages, one in each frame up to the last. -/
def polls (limit : Nat) (layout : KeyboardLayout) (scale : Int) (audible : Bool)
    (session : Session Time) : List (Frame Time) → List (List Message)
  | [] => []
  | next :: later =>
      let (worked, episode) := session.frame limit layout scale audible next
      session.unread ::
        if episode.finished then [] else polls limit layout scale audible worked later

/-- The turns that the scheduler takes in a frame make no difference to what awaits the window. -/
theorem awaited_work (limit : Nat) (session : Session Time) (readings : List Time)
    (later : List (Tick Time)) :
    (session.work limit readings).1.awaited limit later =
      session.awaited limit (ticksAt readings ++ later) := by
  cases ended : session.ended with
  | true => simp [work, awaited, ended]
  | false =>
      have split := session.scheduler.turns_append limit session.inbox (ticksAt readings) later
      simp only [work, awaited, ended, Bool.false_eq_true, if_false, split]
      rw [← ticksAt]
      generalize session.scheduler.turns limit session.inbox (ticksAt readings) = first
      cases first.getLast? with
      | none => simp [ended]
      | some last => cases ending : last.ending <;> simp [messagesOf, ending]

theorem work_running (limit : Nat) (session : Session Time) (readings : List Time) :
    (session.work limit readings).1.running = session.running := by
  simp only [work]
  split
  · rfl
  · split <;> rfl

/-- The window finds what was sent, in the order in which it was sent. -/
theorem flatten_polls (limit : Nat) (layout : KeyboardLayout) (scale : Int) (audible : Bool)
    (session : Session Time) (frames : List (Frame Time)) :
    (session.polls limit layout scale audible frames).flatten <+:
      session.awaited limit (Frame.ticks layout session.running frames) := by
  induction frames generalizing session with
  | nil => exact List.nil_prefix
  | cons next later inductionHypothesis =>
      rcases events : WindowEvent.allCommands layout session.running next.events with
        ⟨asked, commands⟩
      let sent : Session Time :=
        { session with running := asked, unread := [], inbox := session.inbox ++ commands }
      let worked := (sent.work limit next.readings).1
      have rest : (worked.polls limit layout scale audible later).flatten <+:
          sent.awaited limit (ticksAt next.readings ++ Frame.ticks layout asked later) := by
        have found := inductionHypothesis worked
        rwa [work_running, awaited_work] at found
      have await : session.awaited limit (Frame.ticks layout session.running (next :: later)) =
          session.unread ++
            sent.awaited limit (ticksAt next.readings ++ Frame.ticks layout asked later) := by
        simp only [Frame.ticks, events, awaited, Scheduler.turns_arriving, sent, List.nil_append]
      rw [await, polls, List.flatten_cons, List.prefix_append_right_inj]
      split
      · exact List.nil_prefix
      · simpa only [frame, events] using rest

/-- A session is the loop of frames over its polls. -/
theorem frames_watch (limit : Nat) (layout : KeyboardLayout) (scale : Int) (audible : Bool)
    (session : Session Time) (frames : List (Frame Time)) :
    let episode := session.frames limit layout scale audible frames
    watch scale audible (session.polls limit layout scale audible frames) =
      (episode.calls, episode.finished) := by
  induction frames generalizing session with
  | nil => rfl
  | cons next later inductionHypothesis =>
      have ends : (session.frame limit layout scale audible next).2.finished =
          session.unread.contains .finished := rfl
      have calls : (session.frame limit layout scale audible next).2.calls =
          frameCalls scale audible session.unread := rfl
      simp only [polls, Session.frames, watch]
      by_cases finished : .finished ∈ session.unread
      · simp [ends, finished, calls]
      · simp [ends, finished, calls, inductionHypothesis]

end Session

theorem stop_notMem_openWindow (settings : Settings) (machine : Machine) (program : List Byte)
    (device : SoundDevice) :
    .stop ∉ (settings.openWindow machine program device : Opening Time).calls := by
  cases device with
  | failing reason => simp [Settings.openWindow, SoundDevice.setup]
  | ready rate size channels =>
      simp only [Settings.openWindow, SoundDevice.setup]
      split <;> simp

/-- The window renders every message once and in order, however the messages of a run are cut into
the polls of its frames: a picture for each screen, and one of the calls of the sound, which go to
and fro, for each change of the sound.  Its frames end with the one that finds the last message, and
nothing is then left to be found.  A session whose program was loaded is such a loop of frames
between the opening of the window and its end, which comes once and last. -/
theorem messages_rendered_once (settings : Settings) (limit : Nat) (random : ByteSource)
    (path : String) (content : Except OpenFailure (List Byte)) (device : SoundDevice)
    (frames : List (Frame Time)) {program : List Byte}
    (loads : ((settings.machine random).loadContent path content).answer = .ok program) :
    let machine := ((settings.machine random).loadContent path content).state
    let opening : Opening Time := settings.openWindow machine program device
    let report := settings.run limit random path content device frames
    let sent (began : Time) (ticks : List (Tick Time)) : List Message :=
      messagesOf (((Scheduler.start machine program true).1.begin began).1.turns limit [] ticks)
    let polls := opening.session.polls limit settings.layout opening.scale opening.audible frames
    let watched := watch opening.scale opening.audible polls
    .stop ∉ opening.calls ∧
    report.calls = opening.calls ++ watched.1 ++ (if watched.2 then [.stop] else []) ∧
    Rendered opening.scale opening.audible
      (sent Clock.origin (Frame.ticks settings.layout true frames)) polls ∧
    ∀ (began : Time) (ticks : List (Tick Time)) (cuts : List (List Message)),
      cuts.flatten <+: sent began ticks →
        Rendered opening.scale opening.audible (sent began ticks) cuts := by
  intro machine opening report sent polls watched
  have rendered : ∀ (began : Time) (ticks : List (Tick Time)) (cuts : List (List Message)),
      cuts.flatten <+: sent began ticks →
        Rendered opening.scale opening.audible (sent began ticks) cuts := by
    intro began ticks cuts first
    have ran := Scheduler.turns_ran limit
      ((Scheduler.start machine program true).1.begin began).1 [] ticks
    exact rendered_of_prefix ran.closed ran.alternates first
  have found : polls.flatten <+: sent Clock.origin (Frame.ticks settings.layout true frames) :=
    Session.flatten_polls limit settings.layout opening.scale opening.audible opening.session frames
  have played : report.calls = opening.calls ++ watched.1 ++
      (if watched.2 then [.stop] else []) := by
    simp only [report, Settings.run, loads, Settings.play, watched, polls, opening, machine,
      Session.frames_watch]
  exact ⟨stop_notMem_openWindow settings machine program device, played, rendered _ _ _ found,
    rendered⟩

/-- Four pixels are drawn and a sound of one tick is played before the user asks to quit. -/
theorem messages_rendered_once_beep :
    let settings : Settings := { clock := .whole 100 }
    let program : List Byte := [0xD1, 0x11, 0x60, 0x01, 0xF0, 0x18]
    let loaded := (settings.machine (.ofScript [])).loadContent "beep.ch8" (.ok program)
    let device := SoundDevice.ready 22050 (-16) 1
    let opening : Opening Rat := settings.openWindow loaded.state program device
    let frames : List (Frame Rat) :=
      [⟨[], [1 / 100, 1 / 60, 1 / 50]⟩, ⟨[.keyDown 49], [1 / 30]⟩,
        ⟨[.keyDown escapeCode], [1 / 25]⟩, ⟨[], []⟩, ⟨[.closed], [1]⟩]
    let report := settings.run 10 (.ofScript []) "beep.ch8" (.ok program) device frames
    let polls := opening.session.polls 10 settings.layout opening.scale opening.audible frames
    loaded.answer = .ok program ∧
      polls.map (fun poll => (poll.length, beepsOf poll, poll.contains .finished)) =
        [(0, [], false), (2, [true], false), (1, [false], false), (1, [], true)] ∧
      polls.flatten = messagesOf (((Scheduler.start loaded.state program true).1.begin 0).1.turns 10
        [] (Frame.ticks settings.layout true frames)) ∧
      report.calls = opening.calls ++
        [.frame 60,
          .fill ⟨64, 64, 64⟩, .rectangle ⟨255, 255, 255⟩ 0 0 12 12,
          .rectangle ⟨255, 255, 255⟩ 12 0 12 12, .rectangle ⟨255, 255, 255⟩ 24 0 12 12,
          .rectangle ⟨255, 255, 255⟩ 36 0 12 12, .flip, .play (-1), .frame 60,
          .silence, .frame 60,
          .frame 60, .stop] := by
  intro settings program loaded device opening frames report polls
  have possible : "beep.ch8".contains '\x00' = false := by simp
  have content : loaded = ⟨((settings.machine (.ofScript [])).load program).state, .ok program,
      [.loadingProgram "beep.ch8", .programLoaded 6 0x200]⟩ := by
    simp only [loaded, Machine.loadContent, possible]
    rfl
  have loads : loaded.answer = .ok program := by rw [content]
  obtain ⟨_, calls, rendered, _⟩ := messages_rendered_once settings 10 (.ofScript [])
    "beep.ch8" (.ok program) device frames loads
  have heard : polls.map (fun poll => (poll.length, beepsOf poll, poll.contains .finished)) =
      [(0, [], false), (2, [true], false), (1, [false], false), (1, [], true)] := by
    simp only [polls, opening, content]
    decide +kernel
  have watched : watch opening.scale opening.audible polls =
      ([.frame 60,
        .fill ⟨64, 64, 64⟩, .rectangle ⟨255, 255, 255⟩ 0 0 12 12,
        .rectangle ⟨255, 255, 255⟩ 12 0 12 12, .rectangle ⟨255, 255, 255⟩ 24 0 12 12,
        .rectangle ⟨255, 255, 255⟩ 36 0 12 12, .flip, .play (-1), .frame 60,
        .silence, .frame 60,
        .frame 60], true) := by
    simp only [polls, opening, content]
    decide +kernel
  have found : .finished ∈ polls.flatten := rendered.finds.mp (by rw [watched])
  refine ⟨loads, heard, (rendered.ends found).1, ?_⟩
  have played : report.calls = _ := calls
  rw [played, watched, List.append_assoc]
  rfl

end ChipEight
