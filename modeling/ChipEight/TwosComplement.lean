/-!
# Two's complement

A whole number is read as an endless row of bits, which from some bit on are all clear if the number
is not negative and all set if it is.  The operations of this module combine two numbers bit by bit.
-/

namespace ChipEight.TwosComplement

/-- The bits of `m` that are clear in `n`. -/
def without (m n : Nat) : Nat :=
  m ^^^ (m &&& n)

/-- The bits that are set in either number. -/
def or : Int → Int → Int
  | .ofNat m, .ofNat n => .ofNat (m ||| n)
  | .ofNat m, .negSucc n => .negSucc (without n m)
  | .negSucc m, .ofNat n => .negSucc (without m n)
  | .negSucc m, .negSucc n => .negSucc (m &&& n)

/-- The bits that are set in both numbers. -/
def and : Int → Int → Int
  | .ofNat m, .ofNat n => .ofNat (m &&& n)
  | .ofNat m, .negSucc n => .ofNat (without m n)
  | .negSucc m, .ofNat n => .ofNat (without n m)
  | .negSucc m, .negSucc n => .negSucc (m ||| n)

/-- The bits that are set in one number and clear in the other. -/
def xor : Int → Int → Int
  | .ofNat m, .ofNat n => .ofNat (m ^^^ n)
  | .ofNat m, .negSucc n => .negSucc (m ^^^ n)
  | .negSucc m, .ofNat n => .negSucc (m ^^^ n)
  | .negSucc m, .negSucc n => .ofNat (m ^^^ n)

theorem testBit_without (m n position : Nat) :
    (without m n).testBit position = (m.testBit position && !n.testBit position) := by
  rw [without, Nat.testBit_xor, Nat.testBit_and]
  cases m.testBit position <;> cases n.testBit position <;> rfl

end ChipEight.TwosComplement
