import ChipEight.Hertz
import ChipEight.Window.KeyboardLayout

/-!
# Switches

The command line names a program and may set switches.  This module says how each switch is
spelled, whether it takes a value, and what it is for.
-/

namespace ChipEight

/-- The switches of the command line. -/
inductive Switch where
  | help
  | clock
  | keyboard
  | shiftVy
  | width
  | height
  | debug
  deriving DecidableEq

namespace Switch

/-- The switches in the order in which they are listed. -/
def all : List Switch :=
  [.help, .clock, .keyboard, .shiftVy, .width, .height, .debug]

/-- The spellings of a switch. -/
def spellings : Switch → List String
  | .help => ["-h", "--help"]
  | .clock => ["-c", "--cpu-clock"]
  | .keyboard => ["-k", "--keyboard"]
  | .shiftVy => ["--shift-vy"]
  | .width => ["--width"]
  | .height => ["--height"]
  | .debug => ["--debug"]

/-- The name of the value that a switch takes, if it takes one. -/
def valueName? : Switch → Option String
  | .clock => some "HZ"
  | .keyboard => some ("\x7b" ++ ",".intercalate (KeyboardLayout.all.map (·.name)) ++ "\x7d")
  | .width => some "WIDTH"
  | .height => some "HEIGHT"
  | _ => none

/-- Whether a switch takes a value. -/
def takesValue (switch : Switch) : Bool :=
  switch.valueName?.isSome

/-- What a switch is for. -/
def purpose : Switch → String
  | .help => "show this help message and exit"
  | .clock =>
      "The CPU clock speed to target in Hz, at most " ++ toString greatestRate ++ ". " ++
        toString defaultRate ++ " Hz by default"
  | .keyboard => "The keyboard layout to map the keypad onto. QWERTY by default"
  | .shiftVy => "8XY6/8XYE shift VY into VX instead of shifting VX in place"
  | .width => "Window width hint in pixels"
  | .height => "Window height hint in pixels"
  | .debug => "Enable verbose debug logging"

/-- Every spelling with its switch, in the order in which they are listed. -/
def spelled : List (String × Switch) :=
  all.flatMap fun switch => switch.spellings.map (·, switch)

/-- The switch of a spelling. -/
def ofSpelling? (spelling : String) : Option Switch :=
  spelled.lookup spelling

/-- A spelling with the name of the value behind it. -/
def withValueName (switch : Switch) (spelling : String) : String :=
  match switch.valueName? with
  | some name => spelling ++ " " ++ name
  | none => spelling

/-- All spellings of a switch as one name. -/
def title (switch : Switch) : String :=
  "/".intercalate switch.spellings

end Switch

end ChipEight
