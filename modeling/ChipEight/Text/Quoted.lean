import ChipEight.Text.Hexadecimal
import ChipEight.Text.Printable

/-!
# Quoted text

A text is quoted between apostrophes, or between double quotes if it holds an apostrophe and no
double quote.  Within the quotes a backslash stands before the quote itself and before a backslash,
and characters that are not printable are written as escapes.
-/

namespace ChipEight.Text

/-- The quote around a text. -/
def quoteFor (text : List Char) : Char :=
  if text.contains '\'' && !text.contains '"' then '"' else '\''

/-- A character as it stands between quotes. -/
def quotedChar (quote c : Char) : List Char :=
  if c = quote || c = '\\' then ['\\', c]
  else if c = '\n' then ['\\', 'n']
  else if c = '\r' then ['\\', 'r']
  else if c = '\t' then ['\\', 't']
  else if isPrintable c then [c]
  else if c.toNat < 0x100 then '\\' :: 'x' :: hexDigits .lower 2 c.toNat
  else if c.toNat < 0x10000 then '\\' :: 'u' :: hexDigits .lower 4 c.toNat
  else '\\' :: 'U' :: hexDigits .lower 8 c.toNat

/-- A text within its quotes. -/
def quoted (text : String) : String :=
  let quote := quoteFor text.toList
  String.ofList (quote :: text.toList.flatMap (quotedChar quote) ++ [quote])

end ChipEight.Text
