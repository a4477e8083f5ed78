import ChipEight.Nibble

/-!
# Numerals in base sixteen

Addresses, opcodes and operands are printed in base sixteen, with letters of one case and filled
up with zeros to a least width.  A sign counts towards the width.
-/

namespace ChipEight.Text

/-- The case of the letters that stand for the digits ten to fifteen. -/
inductive LetterCase where
  | lower
  | upper
  deriving DecidableEq

/-- The character of one digit below sixteen. -/
def LetterCase.digit (letters : LetterCase) (value : Nibble) : Char :=
  match letters with
  | .lower => Nat.digitChar value.val
  | .upper => (Nat.digitChar value.val).toUpper

/-- The digits of a number, most significant first: at least `width` of them, and more only if the
number needs more. -/
def hexDigits (letters : LetterCase) (width value : Nat) : List Char :=
  if small : value < 16 then
    List.replicate (width - 1) '0' ++ [letters.digit ⟨value, small⟩]
  else
    hexDigits letters (width - 1) (value / 16) ++ [letters.digit (Fin.ofNat 16 value)]
  termination_by value
  decreasing_by omega

/-- The numeral of an integer.  A negative one starts with its sign, which takes one place of the
width. -/
def hexNumeral (letters : LetterCase) (width : Nat) (value : Int) : String :=
  match value with
  | .ofNat magnitude => String.ofList (hexDigits letters width magnitude)
  | .negSucc below => String.ofList ('-' :: hexDigits letters (width - 1) (below + 1))

end ChipEight.Text
