import ChipEight.Machine

/-!
# Access by number

Registers, pixels and the keys of a machine are reached here by a whole number that need not name
one.  Registers and pixels may be counted from the end; keys may not.
-/

namespace ChipEight

/-- The pixel at a column and a row.  The row is looked for first. -/
def Screen.pixelAt (screen : Screen) (x y : Int) : Except AccessError Bool := do
  let row ← placeInSequence .outOfRange 32 y
  let column ← placeInSequence .outOfRange 64 x
  return screen.lit column row

namespace Machine

/-- The value of the register with a number. -/
def registerAt (machine : Machine) (number : Int) : Except AccessError Int :=
  (placeInSequence .outOfRange 16 number).map machine.register

/-- Loads the register with a number. -/
def setRegisterAt (machine : Machine) (number value : Int) : Except AccessError Machine :=
  (placeInSequence .outOfRangeToWrite 16 number).map fun x => machine.setRegister x value

/-- Presses or releases the key with an index. -/
def setKeyAt (machine : Machine) (index : Int) (pressed : Bool) : Except AccessError Machine :=
  (Key.ofIndex index).map fun key => machine.setKey key pressed

end Machine

end ChipEight
