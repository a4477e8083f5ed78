import ChipEight.CommandLine.Switch

/-!
# Misuse of the command line

Why a command line is not understood, and how that is worded.
-/

namespace ChipEight

open Text

/-- Why a command line is not understood. -/
inductive Misuse where
  /-- A switch is cut short so that it could be one of several. -/
  | ambiguous (word : String) (candidates : List String)
  /-- A value is attached to a switch that takes none. -/
  | needlessValue (switch : Switch) (value : String)
  /-- A switch lacks its value. -/
  | missingValue (switch : Switch)
  /-- The value of a switch is no whole number. -/
  | noNumber (switch : Switch) (value : String)
  /-- The value of a switch is none of those that there are. -/
  | noChoice (switch : Switch) (value : String)
  /-- No program is named. -/
  | missingProgram
  /-- Words are left over. -/
  | unrecognized (words : List String)
  deriving DecidableEq

/-- The wording of an error of a switch. -/
def Switch.complaint (switch : Switch) (text : String) : String :=
  "argument " ++ switch.title ++ ": " ++ text

/-- The wording of a misuse. -/
def Misuse.message : Misuse → String
  | .ambiguous word candidates =>
      "ambiguous option: " ++ word ++ " could match " ++ ", ".intercalate candidates
  | .needlessValue switch value =>
      switch.complaint ("ignored explicit argument " ++ quoted value)
  | .missingValue switch => switch.complaint "expected one argument"
  | .noNumber switch value => switch.complaint ("invalid int value: " ++ quoted value)
  | .noChoice switch value =>
      switch.complaint ("invalid choice: " ++ quoted value ++ " (choose from " ++
        ", ".intercalate (KeyboardLayout.all.map fun layout => quoted layout.name) ++ ")")
  | .missingProgram => "the following arguments are required: program"
  | .unrecognized words => "unrecognized arguments: " ++ " ".intercalate words

end ChipEight
