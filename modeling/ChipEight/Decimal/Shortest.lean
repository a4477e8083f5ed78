/-!
# Shortest decimals of binary fractions

A double of finite value is a sign, a whole significand and a power of two.  Among the decimals
that are nearer to it than to any other double, `shortest` finds one with the fewest digits, and of
those the nearest one.  `DecimalLayout` holds the decisions of a written form: which magnitudes
are written with a point, and how an exponent looks.
-/

namespace ChipEight.Decimal

/-- A double as `significand * 2 ^ exponent`, under a sign. -/
structure BinaryFraction where
  negative : Bool
  significand : Nat
  exponent : Int

/-- The parts of a double of finite value. -/
def BinaryFraction.ofFloat (value : Float) : BinaryFraction :=
  let bits := value.toBits.toNat
  let biased : Nat := bits / 0x10000000000000 % 2048
  let fraction : Nat := bits % 0x10000000000000
  let negative := decide (bits / 0x8000000000000000 = 1)
  if biased = 0 then ⟨negative, fraction, -1074⟩
  else ⟨negative, fraction + 0x10000000000000, (biased : Int) - 1075⟩

/-- The whole part, that is the value without the digits behind its point. -/
def BinaryFraction.truncate (value : BinaryFraction) : Int :=
  let magnitude :=
    value.significand * Nat.pow 2 value.exponent.toNat / Nat.pow 2 (-value.exponent).toNat
  if value.negative then -(magnitude : Int) else magnitude

/-- Whether the value has no digits behind its point. -/
def BinaryFraction.isWhole (value : BinaryFraction) : Bool :=
  value.significand % Nat.pow 2 (-value.exponent).toNat = 0

/-- A decimal `digits * 10 ^ exponent`. -/
structure Digits where
  digits : Nat
  exponent : Int

/-- The place of the leading digit: the least `p` with `numerator / denominator < 10 ^ p`. -/
def leadingPlace (numerator denominator : Nat) : Int :=
  if denominator ≤ numerator then
    ((Nat.toDigits 10 (numerator / denominator)).length : Int)
  else
    match (List.range 400).find? fun shift => denominator ≤ numerator * Nat.pow 10 shift with
    | some shift => 1 - (shift : Int)
    | none => 0

/-- The decimals of one power of ten on either side of `centre`, where all three numbers stand
over the same denominator, and of them the nearer one that lies between `low` and `high`.  The
ends count if `closed` is true. -/
def nearestOnGrid (low centre high step : Nat) (closed : Bool) : Option Nat :=
  let inside := fun count =>
    let point := count * step
    if closed then low ≤ point && point ≤ high else low < point && point < high
  let below := centre / step
  let above := below + 1
  let distanceBelow := centre - below * step
  let distanceAbove := above * step - centre
  match inside below, inside above with
  | true, true =>
      if distanceBelow < distanceAbove then some below
      else if distanceAbove < distanceBelow then some above
      else if below % 2 = 0 then some below
      else some above
  | true, false => some below
  | false, true => some above
  | false, false => none

/-- The shortest decimal that is read back as a given positive magnitude. -/
def shortest (value : BinaryFraction) : Digits :=
  let up := (value.exponent - 2).toNat
  let down := (2 - value.exponent).toNat
  let gapBelow := if value.significand = 0x10000000000000 ∧ -1074 < value.exponent then 1 else 2
  let centre := 4 * value.significand * Nat.pow 2 up
  let low := (4 * value.significand - gapBelow) * Nat.pow 2 up
  let high := (4 * value.significand + 2) * Nat.pow 2 up
  let unit := Nat.pow 2 down
  let place := leadingPlace centre unit
  let closed := decide (value.significand % 2 = 0)
  let found := (List.range 17).findSome? fun extra =>
    let exponent := place - (extra + 1 : Nat)
    let scale := Nat.pow 10 (-exponent).toNat
    let step := unit * Nat.pow 10 exponent.toNat
    (nearestOnGrid (low * scale) (centre * scale) (high * scale) step closed).map
      fun digits => (⟨digits, exponent⟩ : Digits)
  found.getD ⟨0, 0⟩

/-- How decimals are written: the places of the leading digit between which the point is written
out, and the least number of digits of an exponent. -/
structure DecimalLayout where
  leastPlace : Int
  greatestPlace : Int
  exponentWidth : Nat

/-- The digits of an exponent behind its sign, filled up with zeros. -/
def DecimalLayout.exponentText (layout : DecimalLayout) (exponent : Int) : String :=
  let digits := Nat.toDigits 10 exponent.natAbs
  let filled := List.replicate (layout.exponentWidth - digits.length) '0' ++ digits
  (if exponent < 0 then "e-" else "e+") ++ String.ofList filled

/-- The written form of a magnitude.  With the point written out there is a digit on both sides of
it. -/
def DecimalLayout.magnitudeText (layout : DecimalLayout) (value : Digits) : String :=
  let digits := Nat.toDigits 10 value.digits
  let significant := (digits.reverse.dropWhile (· == '0')).reverse
  let place := (digits.length : Int) + value.exponent
  if value.digits = 0 then "0.0"
  else if layout.leastPlace ≤ place ∧ place ≤ layout.greatestPlace then
    if place ≤ 0 then
      "0." ++ String.ofList (List.replicate (-place).toNat '0' ++ significant)
    else
      let whole := (significant ++ List.replicate (place.toNat - significant.length) '0').take
        place.toNat
      let fraction := significant.drop place.toNat
      String.ofList whole ++ "." ++ (if fraction.isEmpty then "0" else String.ofList fraction)
  else
    match significant with
    | [] => "0.0"
    | first :: rest =>
        String.ofList (if rest.isEmpty then [first] else first :: '.' :: rest) ++
          layout.exponentText (place - 1)

/-- The written form of a double of finite value. -/
def DecimalLayout.text (layout : DecimalLayout) (value : Float) : String :=
  let parts := BinaryFraction.ofFloat value
  let magnitude :=
    if parts.significand = 0 then "0.0" else layout.magnitudeText (shortest parts)
  if parts.negative then "-" ++ magnitude else magnitude

end ChipEight.Decimal
