import ChipEight.Fault
import ChipEight.Hertz
import ChipEight.Instruction.Assembly
import ChipEight.Keypad
import ChipEight.Memory

/-!
# The log

Every operation reports what happened as a list of events.  An event has a level and a wording,
and a reader of the log sees the events from some level upwards.  An operation that reports is given
the logger to which it does, and keeps the whole log unless it is given another one.
-/

namespace ChipEight

open Text

inductive Level where
  | debug
  | info
  | warning
  | error
  deriving DecidableEq

def Level.name : Level → String
  | .debug => "DEBUG"
  | .info => "INFO"
  | .warning => "WARNING"
  | .error => "ERROR"

/-- The levels in increasing order of weight. -/
def Level.weight : Level → Nat
  | .debug => 0
  | .info => 1
  | .warning => 2
  | .error => 3

inductive LogEvent where
  /-- Memory was brought to its state at power-on. -/
  | memoryInitialised
  /-- A program file is about to be read. -/
  | loadingProgram (path : String)
  | programLoaded (length : Nat) (pc : Int)
  /-- An opcode is about to be executed. -/
  | executing (pc : Int) (opcode : Opcode)
  /-- An opcode that is no instruction was skipped. -/
  | unknownOpcode (pc : Int) (opcode : Opcode)
  /-- A key arrived although nobody waits for one. -/
  | noKeyAwaited
  /-- A clock rate was replaced by one within the bounds. -/
  | rateClamped (asked : Hertz) (used : Nat)
  | resumed
  | paused
  | resetting
  | quitRequested
  /-- Something that is no command arrived in place of one. -/
  | unknownCommand (text : String)
  | invalidKey (index : Int)
  | keyEndsWait (key : Key)
  | schedulerStarting (clock : Hertz)
  | programEnded
  | halted (fault : Fault)
  | schedulerFinished
  | banner
  | loadingFailed (error : LoadError)
  | openingWindow
  | windowMode (width height scale : Int)
  | noSoundDevice (reason : String)
  /-- The sound device has another kind of samples. -/
  | unsupportedSamples (size : Int)
  | emulationStarting
  | emulationHalted
  deriving DecidableEq

namespace LogEvent

def level : LogEvent → Level
  | .memoryInitialised => .debug
  | .executing .. => .debug
  | .keyEndsWait _ => .debug
  | .unknownOpcode .. => .warning
  | .noKeyAwaited => .warning
  | .rateClamped .. => .warning
  | .unknownCommand _ => .warning
  | .invalidKey _ => .warning
  | .noSoundDevice _ => .warning
  | .unsupportedSamples _ => .warning
  | .halted _ => .error
  | .loadingFailed _ => .error
  | _ => .info

def text : LogEvent → String
  | .memoryInitialised =>
      "Main memory " ++ toString memorySize ++ " bytes initialised, fonts loaded to " ++
        hexNumeral .lower 4 fontStart
  | .loadingProgram path => "Loading program " ++ path
  | .programLoaded length pc =>
      "Program length " ++ toString length ++ " bytes loaded at 0x" ++ hexNumeral .lower 4 pc
  | .executing pc opcode =>
      hexNumeral .lower 4 pc ++ " | OP 0x" ++ hexNumeral .lower 4 opcode.toNat ++ " - " ++
        opcode.mnemonic
  | .unknownOpcode pc opcode =>
      "Not implemented opcode " ++ hexNumeral .upper 4 opcode.toNat ++ " at " ++
        hexNumeral .upper 4 pc
  | .noKeyAwaited =>
      "end_wait_for_key called but the VM wasn't waiting for a key press - ignoring"
  | .rateClamped asked used =>
      "CPU clock " ++ asked.text ++ " Hz out of range, using " ++ toString used ++ " Hz"
  | .resumed => "Emulation resumed"
  | .paused => "Emulation paused"
  | .resetting => "Resetting the virtual machine"
  | .quitRequested => "Quit requested"
  | .unknownCommand text => "Unknown command " ++ text ++ " - ignoring"
  | .invalidKey index => "Invalid key index " ++ toString index ++ " - ignoring"
  | .keyEndsWait key =>
      "Key " ++ hexNumeral .lower 1 key.val ++ " ends the wait for a key press"
  | .schedulerStarting clock => "VM thread starting, CPU clock " ++ clock.text ++ " Hz"
  | .programEnded => "The program ended properly."
  | .halted fault => "Emulation halted: " ++ fault.message
  | .schedulerFinished => "VM thread finished"
  | .banner => "chip8vm - a threaded Chip-8 interpreter"
  | .loadingFailed error => "Loading error : " ++ error.message
  | .openingWindow => "Initialise display engine"
  | .windowMode width height scale =>
      "Display mode " ++ toString width ++ " x " ++ toString height ++ ", " ++ toString scale ++
        " pixels per Chip-8 pixel"
  | .noSoundDevice reason => "No audio device, sound disabled: " ++ reason
  | .unsupportedSamples size =>
      "Unsupported mixer sample size " ++ toString size ++ ", sound disabled"
  | .emulationStarting => "Emulation starting"
  | .emulationHalted => "Emulation halted"

end LogEvent

/-- The events that a reader sees who asked for a level and what weighs more. -/
def visibleAt (least : Level) (log : List LogEvent) : List LogEvent :=
  log.filter fun event => least.weight ≤ event.level.weight

/-- A logger keeps the events from a level upwards, and drops the others as they are reported. -/
structure Logger where
  least : Level

namespace Logger

/-- The logger that keeps every event. -/
def complete : Logger :=
  ⟨.debug⟩

/-- Whether the events of a level are kept. -/
def enabled (logger : Logger) (level : Level) : Bool :=
  logger.least.weight ≤ level.weight

/-- Reports an event. -/
def record (logger : Logger) (event : LogEvent) : List LogEvent :=
  if logger.enabled event.level then [event] else []

@[simp]
theorem record_complete (event : LogEvent) : complete.record event = [event] :=
  if_pos (decide_eq_true (Nat.zero_le _))

@[simp]
theorem flatMap_record_complete (log : List LogEvent) : log.flatMap complete.record = log := by
  rw [funext record_complete, List.flatMap_singleton']

end Logger

/-- What an operation leaves behind: the state it reached, its answer or the reason why it has
none, and what it reported.  A state changed before a failure stays changed. -/
structure Outcome (State Failure Answer : Type) where
  state : State
  answer : Except Failure Answer
  log : List LogEvent

end ChipEight
