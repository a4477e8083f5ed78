import ChipEight.Memory
import ChipEight.Text.Hexadecimal

/-!
# Faults

What can go wrong when the machine runs or a program is loaded, and how each cause is worded.
-/

namespace ChipEight

open Text

/-- Why the machine cannot go on. -/
inductive FaultCause where
  /-- A return without a pending call. -/
  | stackUnderflow
  /-- A call while all sixteen slots of the stack are taken. -/
  | stackOverflow
  /-- An access that does not end within memory. -/
  | memoryAccess (start length : Int)
  /-- A test of a key beyond the sixteenth. -/
  | noSuchKey (key : Int)
  /-- A fetch from below the start of the program. -/
  | fetchBelowProgram (address : Int)
  | described (text : String)
  deriving DecidableEq

def FaultCause.text : FaultCause → String
  | .stackUnderflow => "Stack underflow"
  | .stackOverflow => "Stack overflow"
  | .memoryAccess start length =>
      "Memory access error at " ++ hexNumeral .lower 4 start ++ ", " ++ toString length ++ " bytes"
  | .noSuchKey key => "Invalid key index " ++ toString key
  | .fetchBelowProgram address =>
      "Fetch outside program memory at " ++ hexNumeral .lower 4 address
  | .described text => text

/-- A cause together with the instruction at which it arose, as far as that is known. -/
structure Fault where
  cause : FaultCause
  pc : Option Int
  opcode : Option Int
  deriving DecidableEq

/-- The wording of a fault, which names the instruction if both its parts are known. -/
def Fault.message (fault : Fault) : String :=
  match fault.pc, fault.opcode with
  | some pc, some opcode =>
      fault.cause.text ++ " (OP 0x" ++ hexNumeral .lower 4 opcode ++ " at " ++
        hexNumeral .lower 4 pc ++ ")"
  | _, _ => fault.cause.text

/-- Why an instruction is not carried out. -/
inductive Interruption where
  | faulted (fault : Fault)
  /-- A number strays: it names no key or no byte of memory, or shall be a byte and is none. -/
  | strayed (error : AccessError)
  deriving DecidableEq

def Interruption.message : Interruption → String
  | .faulted fault => fault.message
  | .strayed error => error.message

/-- Why a file cannot be opened. -/
inductive OpenFailure where
  | missing
  | isDirectory
  | notDirectory
  | nameTooLong
  | other (reason : String)
  deriving DecidableEq

def OpenFailure.text : OpenFailure → String
  | .missing => "No such file or directory"
  | .isDirectory => "Is a directory"
  | .notDirectory => "Not a directory"
  | .nameTooLong => "File name too long"
  | .other reason => reason

/-- Why a program is not loaded. -/
inductive LoadError where
  /-- The program does not fit between the program counter and the end of memory. -/
  | tooLarge (length : Nat) (pc : Int)
  | unreadable (path : String) (failure : OpenFailure)
  /-- The path holds the character of code zero, which no path may. -/
  | impossiblePath
  deriving DecidableEq

/-- The wording of an error on loading.  The room is negative if the program counter stands beyond
the end of memory. -/
def LoadError.message : LoadError → String
  | .tooLarge length pc =>
      "Program is too large: " ++ toString length ++ " bytes, " ++
        toString (memorySize - pc) ++ " available at 0x" ++ hexNumeral .lower 4 pc
  | .unreadable path failure =>
      "couldn't open rom file \"" ++ path ++ "\" : " ++ failure.text
  | .impossiblePath => "embedded null byte"

end ChipEight
