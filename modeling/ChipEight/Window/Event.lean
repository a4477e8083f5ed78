import ChipEight.Message
import ChipEight.Window.KeyboardLayout

/-!
# Events of the window

A key of the keyboard either belongs to the keypad or asks for something else: to quit, to pause or
to start again.  The window keeps whether it last asked for a run or for a pause.
-/

namespace ChipEight

inductive WindowEvent where
  | closed
  | keyDown (code : KeyCode)
  | keyUp (code : KeyCode)
  | other
  deriving DecidableEq

def escapeCode : KeyCode := 27

def pauseCode : KeyCode := 112

def restartCode : KeyCode := 8

/-- The run state after an event, and the commands that it causes. -/
def WindowEvent.commands (event : WindowEvent) (layout : KeyboardLayout) (running : Bool) :
    Bool × List Command :=
  match event with
  | .closed => (running, [.quit])
  | .keyDown code =>
      if code = escapeCode then (running, [.quit])
      else if code = pauseCode then (!running, [.setRunning !running])
      else if code = restartCode then (running, [.reset])
      else (running, (layout.key? code).toList.map fun key => .setKey key.val true)
  | .keyUp code => (running, (layout.key? code).toList.map fun key => .setKey key.val false)
  | .other => (running, [])

/-- The run state after some events, and the commands that they cause in turn. -/
def WindowEvent.allCommands (layout : KeyboardLayout) (running : Bool) :
    List WindowEvent → Bool × List Command
  | [] => (running, [])
  | event :: events =>
      let (next, commands) := event.commands layout running
      let (last, rest) := allCommands layout next events
      (last, commands ++ rest)

end ChipEight
