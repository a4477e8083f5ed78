import ChipEight.CommandLine.Misuse
import ChipEight.Text.Integer

/-!
# Words of the command line

Before anything is done, every word is read on its own: as a switch, perhaps with a value attached
to it, or as an argument.  A switch may be cut short as long as one switch only is meant.  Behind
the first `--` every word is an argument.
-/

namespace ChipEight

open Text

/-- What a word is read as. -/
inductive Word where
  /-- The first `--`. -/
  | separator
  | argument (text : String)
  /-- A switch, whether it is a letter behind a single dash, and the text that is attached to it,
  either behind an equals sign or directly. -/
  | named (switch : Switch) (letter : Bool) (attached : Option String)
  /-- It looks like a switch, but there is none of this spelling. -/
  | strange (text : String)
  deriving DecidableEq

namespace Word

/-- The parts of a word before and behind its first equals sign, if it has one. -/
def splitAtEquals (text : List Char) : List Char × Option (List Char) :=
  match text.dropWhile (· != '=') with
  | [] => (text, none)
  | _ :: value => (text.takeWhile (· != '='), some value)

/-- Whether a spelling is a letter behind a single dash. -/
def isLetter (spelling : String) : Bool :=
  match spelling.toList with
  | '-' :: '-' :: _ => false
  | _ => true

/-- What a word is if it begins with a long spelling or the beginning of one. -/
def ofLong (text : List Char) : List (String × Word) :=
  let (stem, value) := splitAtEquals text
  (Switch.spelled.filter fun entry => stem.isPrefixOf entry.1.toList).map fun (spelling, switch) =>
    (spelling, .named switch (isLetter spelling) (value.map String.ofList))

/-- What a word is if it begins with a letter behind a single dash, or with the beginning of
another spelling. -/
def ofShort (text : List Char) : List (String × Word) :=
  Switch.spelled.filterMap fun (spelling, switch) =>
    if spelling.toList = text.take 2 then
      some (spelling, .named switch (isLetter spelling) (some (String.ofList (text.drop 2))))
    else if text.isPrefixOf spelling.toList then
      some (spelling, .named switch (isLetter spelling) none)
    else
      none

/-- The ways in which a word that is no full spelling can be read as a switch. -/
def candidates (text : List Char) : List (String × Word) :=
  match text with
  | '-' :: '-' :: _ => ofLong text
  | _ => ofShort text

/-- The word that a text is if no way is known to read it as a switch.  Negative numbers and texts
with a space are arguments. -/
def unlisted (text : String) : Word :=
  if isNegativeNumber text || text.contains ' ' then .argument text else .strange text

/-- The word that a text with a dash in front and something behind it is, if it is no full spelling
of a switch. -/
def ofDashed (text : String) : Except Misuse Word :=
  let (stem, value) := splitAtEquals text.toList
  match value, Switch.ofSpelling? (String.ofList stem) with
  | some value, some switch =>
      .ok (.named switch (isLetter (String.ofList stem)) (some (String.ofList value)))
  | _, _ =>
      match candidates text.toList with
      | [] => .ok (unlisted text)
      | [(_, word)] => .ok word
      | several => .error (.ambiguous text (several.map (·.1)))

/-- The word that a text is. -/
def ofText (text : String) : Except Misuse Word :=
  match text.toList, Switch.ofSpelling? text with
  | _, some switch => .ok (.named switch (isLetter text) none)
  | '-' :: _ :: _, none => ofDashed text
  | _, none => .ok (.argument text)

/-- The words of a command line. -/
def ofTexts : List String → Except Misuse (List Word)
  | [] => .ok []
  | text :: texts =>
      if text = "--" then
        .ok (.separator :: texts.map .argument)
      else do
        return (← ofText text) :: (← ofTexts texts)

end Word

end ChipEight
