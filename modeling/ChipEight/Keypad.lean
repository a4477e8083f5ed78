import ChipEight.Nibble
import ChipEight.Place

/-!
# The keypad

Sixteen keys, each pressed or released.  Only the present state is kept.  A key is also reached by a
whole number, its index; one that lies outside the sixteen names no key.
-/

namespace ChipEight

/-- One of the sixteen keys, named by the digit on its face. -/
abbrev Key := Nibble

/-- The key with a given index, if there is one. -/
def Key.ofIndex? (index : Int) : Option Key :=
  if h : 0 ≤ index ∧ index < 16 then some ⟨index.toNat, by omega⟩ else none

/-- The key with an index, or the error that there is none. -/
def Key.ofIndex (index : Int) : Except AccessError Key :=
  match Key.ofIndex? index with
  | some key => .ok key
  | none => .error (.noSuchKey index)

structure Keypad where
  pressed : Vector Bool 16
  deriving DecidableEq

namespace Keypad

def released : Keypad :=
  ⟨Vector.replicate 16 false⟩

def isPressed (keypad : Keypad) (key : Key) : Bool :=
  keypad.pressed[key]

def set (keypad : Keypad) (key : Key) (pressed : Bool) : Keypad :=
  ⟨keypad.pressed.set key pressed⟩

/-- Setting a key changes that key and no other. -/
theorem isPressed_set (keypad : Keypad) (key other : Key) (pressed : Bool) :
    (keypad.set key pressed).isPressed other =
      if other = key then pressed else keypad.isPressed other := by
  by_cases same : other = key
  · subst same
    simp [set, isPressed]
  · have different : key.val ≠ other.val := fun equal => same (Fin.ext equal.symm)
    simp [set, isPressed, same, different]

/-- Whether the key with an index is pressed. -/
def isPressedAt (keypad : Keypad) (index : Int) : Except AccessError Bool :=
  (Key.ofIndex index).map keypad.isPressed

/-- Presses or releases the key with an index. -/
def setAt (keypad : Keypad) (index : Int) (pressed : Bool) : Except AccessError Keypad :=
  (Key.ofIndex index).map fun key => keypad.set key pressed

end Keypad

end ChipEight
