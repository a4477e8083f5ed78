import ChipEight.Text.DecimalDigit

/-!
# Reading and writing whole numbers

A whole number is a sign, which may be missing, and decimal digits of any script.  Single
underscores may stand between two digits, and blanks around the whole.  Numbers with too many digits
are neither read nor written.
-/

namespace ChipEight.Text

/-- The greatest number of digits of a number that is read or written, unless another limit is
set. -/
def mostDigits : Nat := 4300

/-- The number of decimal digits of a number. -/
def digitCount (number : Int) : Nat :=
  (Nat.toDigits 10 number.natAbs).length

/-- Refuses to write a number that has more digits than the limit, if there is one, and answers the
limit. -/
def requireWritable (limit : Option Nat) (number : Int) : Except Nat Unit :=
  match limit with
  | none => .ok ()
  | some most => if digitCount number ≤ most then .ok () else .error most

/-- The wording of such a refusal. -/
def unwritableMessage (most : Nat) : String :=
  "Exceeds the limit (" ++ toString most ++ " digits) for integer string conversion; use " ++
    "sys.set_int_max_str_digits() to increase the limit"

/-- The digits of a number without the underscores between them. -/
def digitsOf? : List Char → Option (List Nat)
  | [] => none
  | [c] => (decimalDigit? c).map ([·])
  | c :: '_' :: rest => do return (← decimalDigit? c) :: (← digitsOf? rest)
  | c :: rest => do return (← decimalDigit? c) :: (← digitsOf? rest)

/-- The value of some digits in base ten. -/
def valueOfDigits (digits : List Nat) : Nat :=
  digits.foldl (fun value digit => 10 * value + digit) 0

/-- The number without a sign that some characters write. -/
def readMagnitude? (text : List Char) : Option Nat := do
  let digits ← digitsOf? text
  if digits.length ≤ mostDigits then return valueOfDigits digits else none

/-- The text without the blanks around it. -/
def trimBlanks (text : List Char) : List Char :=
  ((text.dropWhile isBlank).reverse.dropWhile isBlank).reverse

/-- The whole number that a text writes. -/
def readInteger? (text : String) : Option Int :=
  match trimBlanks text.toList with
  | '-' :: magnitude => (readMagnitude? magnitude).map fun value => -(value : Int)
  | '+' :: magnitude => (readMagnitude? magnitude).map fun value => (value : Int)
  | magnitude => (readMagnitude? magnitude).map fun value => (value : Int)

/-- Whether a text is a minus sign and a decimal number, with or without a point. -/
def isNegativeNumber (text : String) : Bool :=
  let isDigit := fun c => (decimalDigit? c).isSome
  let line := match text.toList.reverse with
    | '\n' :: rest => rest.reverse
    | _ => text.toList
  match line with
  | '-' :: number =>
      match number.dropWhile isDigit with
      | [] => !number.isEmpty
      | '.' :: fraction => !fraction.isEmpty && fraction.all isDigit
      | _ => false
  | _ => false

end ChipEight.Text
