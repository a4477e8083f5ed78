import ChipEight.CommandLine.Arguments
import ChipEight.Window.Session

/-!
# Launching a session

The arguments of a command line become the settings of a session.  An empty setting, or a path that
cannot be one, breaks the session down at the moment at which it is needed.
-/

namespace ChipEight

/-- Why a session breaks down. -/
inductive Breakdown where
  | noKeyboard
  | noClock
  /-- The program has a path that cannot be one. -/
  | impossiblePath
  | noWindowSize
  deriving DecidableEq

/-- The wording of a breakdown.  An empty setting is shown as a list without entries. -/
def Breakdown.message : Breakdown → String
  | .noKeyboard => "[] is not a valid KeyboardBinding"
  | .noClock => "int() argument must be a string, a bytes-like object or a real number, not 'list'"
  | .impossiblePath => LoadError.impossiblePath.message
  | .noWindowSize => "unsupported operand type(s) for //: 'list' and 'int'"

namespace Arguments

/-- The settings that the arguments ask for.  An empty size is made up for by the usual one. -/
def settings (arguments : Arguments) : Except Breakdown Settings :=
  match arguments.keyboard, arguments.clock with
  | none, _ => .error .noKeyboard
  | some _, none => .error .noClock
  | some layout, some clock =>
      let usual : Settings := {}
      .ok { title := "chip8vm - " ++ arguments.program
            width := arguments.width.getD usual.width
            height := arguments.height.getD usual.height
            layout := layout
            clock := .whole clock
            shiftUsesVy := arguments.shiftVy }

/-- Whether the arguments give a size of the window. -/
def hasSize (arguments : Arguments) : Bool :=
  arguments.width.isSome && arguments.height.isSome

/-- Runs the session that the arguments ask for.  The size of the window is needed once the program
was loaded. -/
def launch {Time : Type} [Clock Time] (arguments : Arguments) (limit : Nat) (random : ByteSource)
    (content : Except OpenFailure (List Byte)) (device : SoundDevice)
    (frames : List (Frame Time)) : Except Breakdown SessionReport := do
  let settings ← arguments.settings
  let loaded := (settings.machine random).loadContent arguments.program content
  match loaded.answer with
  | .error .impossiblePath => .error .impossiblePath
  | .error _ => .ok (settings.run limit random arguments.program content device frames)
  | .ok _ =>
      if arguments.hasSize then
        .ok (settings.run limit random arguments.program content device frames)
      else
        .error .noWindowSize

end Arguments

end ChipEight
