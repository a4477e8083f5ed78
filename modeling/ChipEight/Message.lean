import ChipEight.Screen

/-!
# Commands and messages

The window sends commands to the scheduler, and the scheduler sends messages to the window.
Nothing else passes between the two.
-/

namespace ChipEight

inductive Message where
  | beep (sounding : Bool)
  | display (screen : Screen)
  /-- The last message of a run. -/
  | finished
  deriving DecidableEq

/-- What the window asks of the scheduler. -/
inductive Command where
  | setRunning (running : Bool)
  | setKey (index : Int) (pressed : Bool)
  | reset
  | quit
  /-- Something that is no command, by its written form. -/
  | stray (text : String)
  /-- Something that is no command and has no written form, by the reason. -/
  | unwritable (reason : String)
  deriving DecidableEq

end ChipEight
