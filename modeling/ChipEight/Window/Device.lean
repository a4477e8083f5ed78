import ChipEight.Message

/-!
# Picture and sound

The window is driven by calls to a device.  This module holds the calls, what is painted for a
screen, and the tone: a square wave of 440 periods in a second, of which one period is played over
and over.
-/

namespace ChipEight

/-- A colour by its red, green and blue parts. -/
structure Colour where
  red : Nat
  green : Nat
  blue : Nat
  deriving DecidableEq

def litColour : Colour := ⟨255, 255, 255⟩

def darkColour : Colour := ⟨64, 64, 64⟩

/-- A run of equal samples of a sound. -/
structure SampleRun where
  sample : Int
  count : Nat
  deriving DecidableEq

/-- What a device of picture and sound is asked to do. -/
inductive DeviceCall where
  | start
  | caption (title : String)
  | mode (width height : Int)
  | fill (colour : Colour)
  /-- Paint a rectangle, given by its upper left corner and its size. -/
  | rectangle (colour : Colour) (x y width height : Int)
  /-- Show what was painted. -/
  | flip
  | openSound (frequency size channels : Int)
  | sound (samples : List SampleRun)
  /-- Play the sound; a negative number of repetitions has no end. -/
  | play (repetitions : Int)
  | silence
  /-- Wait for the next frame at a rate. -/
  | frame (rate : Nat)
  | stop
  deriving DecidableEq

/-- The pixels that are lit, row by row from the left. -/
def Screen.litPixels (screen : Screen) : List (Column × Row) :=
  (List.finRange 32).flatMap fun y =>
    ((List.finRange 64).filter fun x => screen.lit x y).map (·, y)

/-- The calls that paint a screen: the background, a square for each lit pixel, and the order to
show them. -/
def Screen.paint (screen : Screen) (scale : Int) : List DeviceCall :=
  .fill darkColour ::
    (screen.litPixels.map fun (x, y) =>
      .rectangle litColour (x.val * scale) (y.val * scale) scale scale) ++ [.flip]

/-- What the sound device answers when it is opened: a reason why it does not open, or how it plays
samples. -/
inductive SoundDevice where
  | failing (reason : String)
  | ready (rate size channels : Int)
  deriving DecidableEq

/-- The number of periods of the tone in a second. -/
def toneRate : Nat := 440

/-- The greatest sample of the tone. -/
def toneLevel : Int := 4096

/-- The kind of samples that is asked for: sixteen bits with a sign. -/
def sampleSize : Int := -16

/-- One period of the tone, each sample once for each channel: a high half and a low half. -/
def tone (rate channels : Int) : List SampleRun :=
  let period := rate.fdiv toneRate
  let high := period.fdiv 2
  let runs : List SampleRun :=
    [⟨toneLevel, high.toNat * channels.toNat⟩, ⟨-toneLevel, (period - high).toNat * channels.toNat⟩]
  runs.filter fun run => 0 < run.count

end ChipEight
