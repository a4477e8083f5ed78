/-!
# Filled lines

Words are set into lines from left to right: a word goes to the current line while there is room
for it and for a blank before it, and otherwise begins the next line.
-/

namespace ChipEight.Text

/-- Sets words into lines of some width.  `line` is the current line. -/
def fillFrom (width : Nat) (line : List String) : List String → List (List String)
  | [] => if line.isEmpty then [] else [line]
  | word :: words =>
      if line.isEmpty ∨ (" ".intercalate (line ++ [word])).length ≤ width then
        fillFrom width (line ++ [word]) words
      else
        line :: fillFrom width [word] words

/-- The lines of some words, where only a word that is wider than a line exceeds the width. -/
def filled (width : Nat) (words : List String) : List String :=
  (fillFrom width [] words).map (" ".intercalate ·)

/-- The words of a text between its blanks. -/
def words (text : String) : List String :=
  (text.splitOn " ").filter fun word => !word.isEmpty

end ChipEight.Text
