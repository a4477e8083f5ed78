import ChipEight.Log
import ChipEight.Window.KeyboardLayout

/-!
# Settings

What a user chooses before a run: the window, the keyboard, the clock rate and the shift mode.  The
size of the window is a hint, since the window shows pixels of one whole size.
-/

namespace ChipEight

/-- The choices of a user, and what is taken where there are none. -/
structure Settings where
  title : String := "chip8vm"
  width : Int := 800
  height : Int := 600
  layout : KeyboardLayout := .qwerty
  clock : Hertz := .whole defaultRate
  shiftUsesVy : Bool := false
  deriving DecidableEq

/-- The settings with the clock rate brought within its bounds. -/
def Settings.clamped (settings : Settings) : Settings :=
  { settings with clock := .whole settings.clock.clamp }

/-- The size of a window and of the pixels in it. -/
structure WindowSize where
  scale : Int
  width : Int
  height : Int
  deriving DecidableEq

/-- The largest window of whole pixels that fits into a width and a height, or the smallest one if
none fits. -/
def WindowSize.fitting (width height : Int) : WindowSize :=
  let scale := max (min (width.fdiv 64) (height.fdiv 32)) 1
  ⟨scale, scale * 64, scale * 32⟩

end ChipEight
