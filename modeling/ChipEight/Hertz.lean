import ChipEight.Decimal.Shortest
import ChipEight.Text.Integer

/-!
# Clock rates

A rate may be asked for as any number, whole or with a fraction.  The scheduler runs at a whole
rate between `1` and `5000`, and `Hertz.clamp` finds the one for a rate that was asked for.
-/

namespace ChipEight

/-- A number of ticks in a second, as it was asked for. -/
inductive Hertz where
  | whole (rate : Int)
  | fraction (rate : Float)
  deriving DecidableEq

/-- Why a scheduler does not take a rate: it has no whole part, or it is out of range and has more
digits than may be written. -/
inductive RateError where
  | infinite
  | undefined
  | tooManyDigits (most : Nat)
  deriving DecidableEq

/-- The wording of a rate error. -/
def RateError.message : RateError → String
  | .infinite => "cannot convert float infinity to integer"
  | .undefined => "cannot convert float NaN to integer"
  | .tooManyDigits most => Text.unwritableMessage most

/-- The rate of the instruction clock unless another one is asked for. -/
def defaultRate : Nat := 600

/-- The greatest rate of the instruction clock. -/
def greatestRate : Nat := 5000

namespace Hertz

/-- The rate without the digits behind its point. -/
def truncate : Hertz → Int
  | .whole rate => rate
  | .fraction rate => (Decimal.BinaryFraction.ofFloat rate).truncate

/-- The whole rate from `1` to `5000` that is nearest to the truncated rate. -/
def clamp (asked : Hertz) : Nat :=
  (min (max asked.truncate 1) greatestRate).toNat

/-- Whether the rate is a given whole number. -/
def isWhole (asked : Hertz) (rate : Nat) : Bool :=
  match asked with
  | .whole _ => asked.truncate = rate
  | .fraction value => (Decimal.BinaryFraction.ofFloat value).isWhole && asked.truncate = rate

/-- Refuses a rate that has no whole part, and one whose report as out of range cannot be
written. -/
def check (asked : Hertz) (digitLimit : Option Nat := some Text.mostDigits) :
    Except RateError Unit :=
  match asked with
  | .whole rate =>
      if asked.isWhole asked.clamp then .ok ()
      else (Text.requireWritable digitLimit rate).mapError .tooManyDigits
  | .fraction rate =>
      if rate.isNaN then .error .undefined
      else if rate.isInf then .error .infinite
      else .ok ()

/-- A fraction is written in the fewest digits that read back, with a point from `0.0001` up to
sixteen digits before it, and otherwise with an exponent of two digits or more. -/
def layout : Decimal.DecimalLayout :=
  { leastPlace := -3, greatestPlace := 16, exponentWidth := 2 }

/-- The written form of a rate. -/
def text : Hertz → String
  | .whole rate => toString rate
  | .fraction rate => layout.text rate

/-- The rate at which the scheduler runs is at least `1` and at most `5000`. -/
theorem clamp_bounds (asked : Hertz) : 1 ≤ asked.clamp ∧ asked.clamp ≤ greatestRate := by
  simp only [clamp, greatestRate]
  omega

end Hertz

end ChipEight
