import ChipEight.CommandLine.Help
import ChipEight.CommandLine.Launch

/-!
# The program

The program runs a session in a terminal.  Every line of the input is a frame, in which the keys of
its characters are pressed and released; at the end of the input the window is closed.  Screens are
drawn with characters, and the log goes to the standard error.
-/

namespace ChipEight.Terminal

/-- The scheduler's turns in a frame, one for each thousandth of a second. -/
def turnsPerFrame : Nat := 17

/-- The reason why a file was not opened. -/
def openFailure : IO.Error → OpenFailure
  | .noFileOrDirectory .. => .missing
  | .inappropriateType _ 20 _ => .notDirectory
  | .inappropriateType .. => .isDirectory
  | error => .other error.toString

/-- The content of a file. -/
def readProgram (path : String) : IO (Except OpenFailure (List Byte)) := do
  try
    return .ok (← IO.FS.readBinFile path).toList
  catch error =>
    return .error (openFailure error)

/-- The events of a line of input. -/
def events (line : String) : List WindowEvent :=
  (line.toList.filter (· != '\n')).flatMap fun key => [.keyDown key.toNat, .keyUp key.toNat]

/-- A screen in characters, two for each pixel. -/
def picture (screen : Screen) : String :=
  let row := fun (pixels : Vector Bool 64) =>
    String.join (pixels.toList.map fun lit => if lit then "[]" else "  ") ++ "\n"
  String.join (screen.rows.toList.map row)

/-- Shows a message of the scheduler. -/
def present (output : IO.FS.Stream) : Message → IO Unit
  | .display screen => output.putStrLn (picture screen)
  | .beep sounding => output.putStr (if sounding then "\x07" else "")
  | .finished => output.flush

/-- Writes the events of the log that weigh enough. -/
def report (errors : IO.FS.Stream) (least : Level) (log : List LogEvent) : IO Unit :=
  (visibleAt least log).forM fun event =>
    errors.putStrLn (event.level.name ++ ":" ++ event.text)

/-- Runs frames until the window has found the last message. -/
partial def frames (input output errors : IO.FS.Stream) (settings : Settings) (least : Level)
    (session : Session Float) (time : Float) : IO Unit := do
  let line ← input.getLine
  let found := if line.isEmpty then [WindowEvent.closed] else events line
  let (readings, next) := Frame.pacedReadings turnsPerFrame time
  session.unread.forM (present output)
  let (worked, episode) := session.frame stepLimit settings.layout 1 true ⟨found, readings⟩
  report errors least episode.log
  if episode.finished then
    report errors least [.emulationHalted]
  else
    frames input output errors settings least worked next

/-- Runs a session with some settings and answers its status. -/
def runSession (arguments : Arguments) (settings : Settings) : IO UInt32 := do
  let errors ← IO.getStderr
  let least := if arguments.debug then Level.debug else Level.info
  let script ← (List.range 256).mapM fun _ => do return UInt8.ofNat (← IO.rand 0 255)
  let loaded := (settings.machine (.ofScript script)).loadContent arguments.program
    (← readProgram arguments.program)
  report errors least (settings.welcome ++ loaded.log)
  match loaded.answer with
  | .error error =>
      report errors least [.loadingFailed error]
      return 1
  | .ok program =>
      let opening : Opening Float :=
        settings.openWindow loaded.state program (.ready 22050 sampleSize 1)
      report errors least opening.log
      frames (← IO.getStdin) (← IO.getStdout) errors settings least opening.session Clock.origin
      return 0

end ChipEight.Terminal

/-- Runs the program that the command line names. -/
def main (texts : List String) : IO UInt32 := do
  match ChipEight.Arguments.ofTexts texts with
  | .ok arguments =>
      match arguments.settings with
      | .ok settings => ChipEight.Terminal.runSession arguments settings
      | .error breakdown =>
          (← IO.getStderr).putStrLn breakdown.message
          return 1
  | .error stop =>
      let notice := stop.notice
      (← IO.getStdout).putStr notice.output
      (← IO.getStderr).putStr notice.errors
      return UInt32.ofNat notice.status
