import ChipEight.Log
import ChipEight.Window.Device

/-!
# Opening the sound device

Without a sound device, or with one of another kind of samples, a run is silent and says so.
-/

namespace ChipEight

/-- Whether there is a tone, the calls that prepared it, and what was reported. -/
structure SoundSetup where
  audible : Bool
  calls : List DeviceCall
  log : List LogEvent

def SoundDevice.setup (device : SoundDevice) : SoundSetup :=
  let opening := DeviceCall.openSound 22050 sampleSize 1
  match device with
  | .failing reason => ⟨false, [opening], [.noSoundDevice reason]⟩
  | .ready rate size channels =>
      if size = sampleSize then ⟨true, [opening, .sound (tone rate channels)], []⟩
      else ⟨false, [opening], [.unsupportedSamples size]⟩

end ChipEight
