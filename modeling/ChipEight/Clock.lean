/-!
# Clocks

The scheduler reads a clock and adds periods to what it read.  It needs of the readings only that
they are added, subtracted and compared, so every type with such an arithmetic serves as time.  The
readings of a real clock are doubles, and sums of periods are rounded as doubles are.  Fractions
serve as readings of a clock whose sums are exact.
-/

namespace ChipEight

/-- A type of clock readings, with the periods that the scheduler keeps. -/
class Clock (Time : Type) extends Add Time, Sub Time, LE Time, LT Time where
  /-- Readings are compared by computation. -/
  decidableLE : DecidableLE Time
  decidableLT : DecidableLT Time
  /-- The reading at which a new scheduler stands. -/
  origin : Time
  /-- The time between two ticks of the timers, a sixtieth of a second. -/
  timerPeriod : Time
  /-- Ticks that are late by more than this are dropped, a tenth of a second. -/
  greatestLag : Time
  /-- The pause between two turns, a thousandth of a second. -/
  idlePause : Time
  /-- The time between two instructions at a number of instructions in a second. -/
  cyclePeriod : Nat → Time

namespace Clock

instance {Time : Type} [Clock Time] : DecidableLE Time := decidableLE

instance {Time : Type} [Clock Time] : DecidableLT Time := decidableLT

/-- Seconds as doubles. -/
instance : Clock Float where
  decidableLE := inferInstance
  decidableLT := inferInstance
  origin := 0.0
  timerPeriod := 1.0 / 60.0
  greatestLag := 0.1
  idlePause := 0.001
  cyclePeriod rate := 1.0 / Float.ofNat rate

/-- Seconds as fractions, which are added without rounding. -/
instance : Clock Rat where
  decidableLE := inferInstance
  decidableLT := inferInstance
  origin := 0
  timerPeriod := 1 / 60
  greatestLag := 1 / 10
  idlePause := 1 / 1000
  cyclePeriod rate := 1 / (rate : Rat)

end Clock

end ChipEight
