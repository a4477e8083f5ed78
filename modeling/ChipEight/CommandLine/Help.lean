import ChipEight.CommandLine.Arguments
import ChipEight.Text.Filled

/-!
# Help

The text that shows how the command line is used.  Its lines have at most 78 characters, and the
purpose of each argument stands in a column of its own.
-/

namespace ChipEight

open Text

/-- The greatest number of characters of a line. -/
def helpWidth : Nat := 78

/-- The column of the purposes. -/
def purposeColumn : Nat := 24

/-- A number of blanks. -/
def blanks (count : Nat) : String :=
  String.ofList (List.replicate count ' ')

/-- A text filled up with blanks to a width. -/
def padded (width : Nat) (text : String) : String :=
  text ++ blanks (width - text.length)

namespace Switch

/-- A switch as it is shown in the usage: its first spelling, in brackets since it may be left
out. -/
def usage (switch : Switch) : String :=
  "[" ++ switch.withValueName (switch.spellings.headD "") ++ "]"

/-- A switch as it is shown in the list: all its spellings. -/
def heading (switch : Switch) : String :=
  ", ".intercalate (switch.spellings.map switch.withValueName)

end Switch

/-- How the command line is used: the switches from the first line on, and the program below
them. -/
def usageText : String :=
  let start := "usage: chip8vm "
  let lines := filled (helpWidth - start.length) (Switch.all.map Switch.usage) ++ ["program"]
  start ++ ("\n" ++ blanks start.length).intercalate lines ++ "\n"

/-- An entry of a list: the heading, and the purpose beside it, or below it if the heading is too
long. -/
def helpEntry (heading purpose : String) : String :=
  let lines := filled (helpWidth - purposeColumn) (words purpose)
  let indented := "  " ++ heading
  let body := ("\n" ++ blanks purposeColumn).intercalate lines
  if indented.length + 2 ≤ purposeColumn then
    padded purposeColumn indented ++ body ++ "\n"
  else
    indented ++ "\n" ++ blanks purposeColumn ++ body ++ "\n"

/-- The whole help. -/
def helpText : String :=
  usageText ++ "\nA threaded Chip-8 emulator\n\npositional arguments:\n" ++
    helpEntry "program" "A compiled Chip-8 program to load" ++ "\noptions:\n" ++
    String.join (Switch.all.map fun switch => helpEntry switch.heading switch.purpose)

/-- What is printed when no run begins, and the status that tells of it. -/
structure Notice where
  status : Nat
  output : String
  errors : String
  deriving DecidableEq

/-- Help is no failure; a misuse is shown below the usage. -/
def Stop.notice : Stop → Notice
  | .help => ⟨0, helpText, ""⟩
  | .misuse reason => ⟨2, "", usageText ++ "chip8vm: error: " ++ reason.message ++ "\n"⟩

end ChipEight
