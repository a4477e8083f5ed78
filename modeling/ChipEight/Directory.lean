import ChipEight.Fault

/-!
# Program files

A program is read from a directory that holds nothing but files.  `Directory.read` follows a path
through it and says why a path leads to no file.
-/

namespace ChipEight

/-- The files of a directory by name. -/
structure Directory where
  files : List (String × List Byte)

/-- The greatest number of bytes of a name within a path. -/
def longestName : Nat := 255

def longestPath : Nat := 4095

namespace Directory

/-- Follows the rest of a path.  `above` counts the steps up, out of the directory; of what lies
there only the directories themselves are known. -/
def follow (directory : Directory) (above : Nat) : List String → Except OpenFailure (List Byte)
  | [] => .error .isDirectory
  | name :: rest =>
      if name = "" ∨ name = "." then
        directory.follow above rest
      else if name = ".." then
        directory.follow (above + 1) rest
      else if longestName < name.utf8ByteSize then
        .error .nameTooLong
      else
        match if above = 0 then directory.files.lookup name else none with
        | none => .error .missing
        | some content => if rest.isEmpty then .ok content else .error .notDirectory

/-- The content of the file at a path.  The empty path leads nowhere, and one that begins with a
slash does not start in the directory. -/
def read (directory : Directory) (path : String) : Except OpenFailure (List Byte) :=
  if path.isEmpty then .error .missing
  else if longestPath < path.utf8ByteSize then .error .nameTooLong
  else directory.follow (if path.startsWith "/" then 1 else 0) (path.splitOn "/")

end Directory

end ChipEight
