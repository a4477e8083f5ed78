import ChipEight.Scheduler.Turn
import ChipEight.Window.Event
import ChipEight.Window.Settings
import ChipEight.Window.Sound

/-!
# A session

A session loads a program, opens the window and lets the scheduler run beside it until the run
ends.  Window and scheduler take turns: in a frame the window sends the commands of its events and
shows the messages that it finds, and then the scheduler takes some turns of its own.
-/

namespace ChipEight

def frameRate : Nat := 60

/-- A frame: the events that the window finds, and the readings of the clock at the turns that the
scheduler takes after them. -/
structure Frame (Time : Type) where
  events : List WindowEvent
  readings : List Time

/-- The calls that show a message. -/
def Message.present (scale : Int) (audible : Bool) : Message → List DeviceCall
  | .display screen => screen.paint scale
  | .beep sounding =>
      if audible then [if sounding then .play (-1) else .silence] else []
  | .finished => []

/-- What stands between two frames. -/
structure Session (Time : Type) where
  scheduler : Scheduler Time
  /-- The commands that the scheduler has not yet found. -/
  inbox : List Command
  /-- The messages that the window has not yet found. -/
  unread : List Message
  /-- Whether the scheduler has finished. -/
  ended : Bool
  /-- Whether the window last asked for a run. -/
  running : Bool

/-- What happened while a session went on. -/
structure Episode where
  calls : List DeviceCall
  log : List LogEvent
  /-- Whether the window has found the last message. -/
  finished : Bool

namespace Session

variable {Time : Type} [Clock Time]

/-- Lets the scheduler take a turn at each reading of the clock. -/
def work (limit : Nat) (session : Session Time) (readings : List Time) :
    Session Time × List LogEvent :=
  if session.ended then
    (session, [])
  else
    let turns := session.scheduler.turns limit session.inbox (readings.map fun now => ⟨now, []⟩)
    let messages := turns.flatMap Turn.messages
    let log := turns.flatMap Turn.log
    match turns.getLast? with
    | none => (session, [])
    | some last =>
        ({ session with
            scheduler := last.scheduler
            inbox := last.inbox
            unread := session.unread ++ messages
            ended := last.ending.isSome }, log)

def frame (limit : Nat) (layout : KeyboardLayout) (scale : Int) (audible : Bool)
    (session : Session Time) (frame : Frame Time) : Session Time × Episode :=
  let (running, commands) := WindowEvent.allCommands layout session.running frame.events
  let found := session.unread
  let (worked, log) :=
    { session with running, unread := [], inbox := session.inbox ++ commands }.work limit
      frame.readings
  (worked, ⟨found.flatMap (Message.present scale audible) ++ [.frame frameRate], log,
    found.contains .finished⟩)

/-- The frames up to the one in which the window finds the last message. -/
def frames (limit : Nat) (layout : KeyboardLayout) (scale : Int) (audible : Bool)
    (session : Session Time) : List (Frame Time) → Episode
  | [] => ⟨[], [], false⟩
  | next :: later =>
      let (worked, episode) := session.frame limit layout scale audible next
      if episode.finished then
        episode
      else
        let rest := frames limit layout scale audible worked later
        ⟨episode.calls ++ rest.calls, episode.log ++ rest.log, rest.finished⟩

end Session

namespace Frame

variable {Time : Type} [Clock Time]

/-- The readings of the clock at some turns with a pause after each of them, and the reading after
the last pause. -/
def pacedReadings : Nat → Time → List Time × Time
  | 0, time => ([], time)
  | turns + 1, time =>
      let (later, last) := pacedReadings turns (time + Clock.idlePause)
      (time :: later, last)

/-- Frames in which the scheduler takes `turns` turns each, with a pause after every turn. -/
def paced (turns : Nat) (time : Time) : List (List WindowEvent) → List (Frame Time)
  | [] => []
  | events :: later =>
      let (readings, next) := pacedReadings turns time
      ⟨events, readings⟩ :: paced turns next later

end Frame

/-- A session at its first frame, what the window needs to show messages, and what was done to get
there. -/
structure Opening (Time : Type) where
  session : Session Time
  scale : Int
  audible : Bool
  calls : List DeviceCall
  log : List LogEvent

/-- What a session leaves behind: whether the program was loaded, what the device was asked to do,
and what was reported. -/
structure SessionReport where
  succeeded : Bool
  calls : List DeviceCall
  log : List LogEvent

namespace Settings

/-- The machine of a session, before a program is loaded. -/
def machine (settings : Settings) (random : ByteSource) : Machine :=
  Machine.powerOn (.whole settings.clock.clamp) settings.shiftUsesVy random

/-- What is reported before a program is loaded. -/
def welcome (settings : Settings) : List LogEvent :=
  .banner :: settings.clock.clampReport ++ [.memoryInitialised]

variable {Time : Type} [Clock Time]

/-- Opens the window and lets the scheduler begin with a machine into which a program was
loaded. -/
def openWindow (settings : Settings) (machine : Machine) (program : List Byte)
    (device : SoundDevice) : Opening Time :=
  let size := WindowSize.fitting settings.width settings.height
  let sound := device.setup
  let (scheduler, clampLog) : Scheduler Time × List LogEvent :=
    Scheduler.start machine program true
  let (begun, startLog) := scheduler.begin Clock.origin
  { session := ⟨begun, [], [], false, true⟩
    scale := size.scale
    audible := sound.audible
    calls :=
      [.start, .caption settings.title, .mode size.width size.height, .fill darkColour, .flip] ++
        sound.calls
    log :=
      [.openingWindow, .windowMode size.width size.height size.scale] ++ sound.log ++ clampLog ++
        [.emulationStarting] ++ startLog }

/-- The session of a machine into which a program was loaded.  The window is closed once it has
found the last message. -/
def play (settings : Settings) (limit : Nat) (machine : Machine) (program : List Byte)
    (device : SoundDevice) (frames : List (Frame Time)) : SessionReport :=
  let opening : Opening Time := settings.openWindow machine program device
  let episode := opening.session.frames limit settings.layout opening.scale opening.audible frames
  { succeeded := true
    calls := opening.calls ++ episode.calls ++ if episode.finished then [.stop] else []
    log := opening.log ++ episode.log ++ if episode.finished then [.emulationHalted] else [] }

/-- Loads the content of a program file and runs it in the window. -/
def run (settings : Settings) (limit : Nat) (random : ByteSource) (path : String)
    (content : Except OpenFailure (List Byte)) (device : SoundDevice)
    (frames : List (Frame Time)) : SessionReport :=
  let loaded := (settings.machine random).loadContent path content
  let log := settings.welcome ++ loaded.log
  match loaded.answer with
  | .error error => ⟨false, [], log ++ [.loadingFailed error]⟩
  | .ok program =>
      let played := settings.play limit loaded.state program device frames
      { played with log := log ++ played.log }

end Settings

end ChipEight
