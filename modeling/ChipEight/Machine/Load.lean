import ChipEight.Directory
import ChipEight.Machine

/-!
# Loading programs

A program is copied to the program counter.  One that does not fit leaves the machine as it is.
-/

namespace ChipEight.Machine

/-- Copies a program into memory. -/
def load (machine : Machine) (program : List Byte) (logger : Logger := .complete) :
    Outcome Machine LoadError Unit :=
  if machine.pc + program.length ≤ memorySize then
    ⟨{ machine with memory := machine.memory.replace machine.pc program }, .ok (),
      logger.record (.programLoaded program.length machine.pc)⟩
  else
    ⟨machine, .error (.tooLarge program.length machine.pc), []⟩

/-- Loads the content of a file and answers its bytes. -/
def loadContent (machine : Machine) (path : String) (content : Except OpenFailure (List Byte))
    (logger : Logger := .complete) : Outcome Machine LoadError (List Byte) :=
  let log := logger.record (.loadingProgram path)
  if path.contains '\x00' then
    ⟨machine, .error .impossiblePath, log⟩
  else
    match content with
    | .error failure => ⟨machine, .error (.unreadable path failure), log⟩
    | .ok program =>
        let loaded := machine.load program logger
        ⟨loaded.state, loaded.answer.map fun _ => program, log ++ loaded.log⟩

/-- Loads the file at a path of a directory and answers its bytes. -/
def loadFile (machine : Machine) (directory : Directory) (path : String) :
    Outcome Machine LoadError (List Byte) :=
  machine.loadContent path (directory.read path)

end ChipEight.Machine
